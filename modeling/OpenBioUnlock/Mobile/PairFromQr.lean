import OpenBioUnlock.Interop.QrPayload
import OpenBioUnlock.Mobile.HexText
import OpenBioUnlock.Mobile.ReadLine

/-!
# Pairing from a QR code

`pairFromQr` of `mobile/lib/main.dart`, from the payload that the scanner returns.

The method stands at one of its awaits, and `PairPhase` lists them with the variables that
are still needed.  The calls of `CryptoService` are awaited like the rest: `encryptEnvelope`
and `decryptEnvelope` read the session key when they are called, so what they come to is
known from then on; the results of the others are those of the calls, whatever they are.
The responses come through the one socket, which is that of `responseMachine`.

The pairing takes three responses from the socket, and `_readLine` can be called once
(`ReadLine`).  `pairing_incomplete` says what is left of it.
-/

namespace OpenBioUnlock.Mobile

open Desktop (Bytes)
open Interop (PairingPayload)
open Codec Runs

/-! ## Requests and responses -/

/-- What the body of `try` throws. -/
inductive PairFailure where
  | thrown (e : DartError)
  /-- the `TimeoutException` of `timeout` -/
  | timeout
  /-- `[]` of a value that has none -/
  | noSuchMethod
  deriving DecidableEq

inductive PairStatus where
  /-- 'PC paired and challenge verified' -/
  | verified
  /-- 'PC paired, challenge rejected' -/
  | challengeRejected
  /-- 'Pairing rejected' -/
  | pairingRejected
  /-- 'Pairing failed: ' and the error -/
  | pairingFailed (error : PairFailure)
  deriving DecidableEq

def pairRequestMap (publicKey exchangePublicKey pairingCode : DString) : DartMap :=
  [entry "type" (.string (ofString "pair")), entry "device_id" (.string publicKey),
    entry "public_key" (.string publicKey),
    entry "x25519_public_key" (.string exchangePublicKey),
    entry "pairing_code" (.string pairingCode)]

def challengeRequestMap : DartMap := [entry "type" (.string (ofString "challenge"))]

def verifyRequestMap (nonce : DartDynamic) (timestamp : Int64) (signature : Uint8List) : DartMap :=
  [entry "type" (.string (ofString "verify")), entry "nonce" nonce,
    entry "timestamp" (.int timestamp), entry "signature" (.string (Main.hex signature))]

/-- `as int`. -/
def asInt : DartDynamic → Except DartError Int64
  | .int n => .ok n
  | _ => .error .typeError

/-- `value == true`. -/
def isTrue : DartDynamic → Bool
  | .bool b => b
  | _ => false

variable (dart : DartLibraries)

/-- A request as it is written to the socket. -/
def requestLine (request : DartMap) : Uint8List :=
  utf8Encode (dart.jsonEncode request ++ [10])

/-- `jsonDecode`, with what it throws. -/
def decodeJson (source : DString) : Except PairFailure DartDynamic :=
  match dart.jsonDecode source with
  | none => .error (.thrown (.formatException ""))
  | some v => .ok v

/-- `jsonDecode(response)['accepted'] == true`. -/
def acceptedIn (response : DString) : Except PairFailure Bool := do
  match ← decodeJson dart response with
  | .map entries => .ok (isTrue (DartMap.get entries "accepted"))
  | .list _ | .string _ => .error (.thrown .typeError)
  | _ => .error .noSuchMethod

/-- `jsonDecode(line) as Map<String, dynamic>`. -/
def envelopeIn (line : DString) : Except PairFailure DartMap := do
  match ← decodeJson dart line with
  | .map entries => .ok entries
  | _ => .error (.thrown .typeError)

/-! ## State -/

/-- What the method awaits. -/
inductive PairPhase where
  /-- `publicKey`, `exchangePublicKey` and `establishSession` -/
  | publicKey (result : PairingPayload)
  | exchangePublicKey (result : PairingPayload) (key : Bytes 32)
  | establishSession (result : PairingPayload) (key exchangeKey : Bytes 32)
  /-- `Socket.connect` -/
  | connecting (result : PairingPayload) (key exchangeKey : Bytes 32)
  /-- `_readLine`, for the response to the pairing request -/
  | response (publicKey : DString)
  /-- `encryptEnvelope`, with what it comes to -/
  | sealingChallenge (publicKey : DString) (envelope : Except DartError DartMap)
  | challengeLine (publicKey : DString)
  /-- `decryptEnvelope`, with what it comes to -/
  | openingChallenge (publicKey : DString) (challenge : Except DartError DartMap)
  /-- `signChallenge` -/
  | signing (publicKey : DString) (nonce : DartDynamic) (timestamp : Int64)
  | sealingVerify (publicKey : DString) (envelope : Except DartError DartMap)
  | authorizationLine (publicKey : DString)
  | openingAuthorization (authorized : Except DartError DartMap)
  /-- `socket.close` -/
  | closing (accepted : Bool)
  | returned

structure PairFlow where
  phase : PairPhase
  /-- the page is still there -/
  mounted : Bool
  connected : Bool
  socket : ResponseSocket

/-- What others see of the method. -/
inductive PairEffect where
  | write (line : Uint8List)
  | close
  /-- a call of `signChallenge` -/
  | sign (nonce : Uint8List) (timestamp : Int64)
  | setStatus (status : PairStatus)
  deriving DecidableEq

/-- What `encryptEnvelope` and `decryptEnvelope` read: the service, and random bytes. -/
structure PairEnv where
  service : CryptoService
  random : ℕ → UInt8

inductive PairEvent where
  /-- a call of `CryptoService` completes -/
  | key (result : Except DartError (Bytes 32))
  | session (result : Except DartError Unit)
  | sealed (env : PairEnv)
  | opened (env : PairEnv)
  | signed (result : Except DartError Uint8List) (env : PairEnv)
  /-- `Socket.connect` completes -/
  | connected (result : Except DartError Unit) (env : PairEnv)
  /-- `close` completes -/
  | closed (result : Except DartError Unit)
  /-- what the desktop sends, and the end of it, with the error the stream ends with -/
  | chunk (bytes : Uint8List) (env : PairEnv)
  | peerClosed (failure : Option DartError) (env : PairEnv)
  /-- eight seconds have passed -/
  | timeout
  | unmount

/-- `pairFromQr`, when the scanner has returned. -/
def PairFlow.scanned (result : Option PairingPayload) : PairFlow where
  phase :=
    match result with
    | none => .returned
    | some result => .publicKey result
  mounted := true
  connected := false
  socket := .connected

/-! ## Steps -/

namespace PairFlow

variable (flow : PairFlow)

def goto (phase : PairPhase) : PairFlow :=
  { flow with phase := phase }

def withSocket (socket : ResponseSocket) : PairFlow :=
  { flow with socket := socket }

/-- The method goes on to its next await. -/
def awaits (phase : PairPhase) : PairFlow × List PairEffect :=
  (flow.goto phase, [])

/-- The `catch`. -/
def fails (error : PairFailure) : PairFlow × List PairEffect :=
  (flow.goto .returned, if flow.mounted then [.setStatus (.pairingFailed error)] else [])

/-- The method goes on with what did not throw. -/
def tries {α : Type} (result : Except DartError α) (next : α → PairFlow × List PairEffect) :
    PairFlow × List PairEffect :=
  match result with
  | .error e => flow.fails (.thrown e)
  | .ok a => next a

/-- `_readLine` has returned, or its timeout has thrown. -/
def answered (env : PairEnv) (line : Except PairFailure DString) : PairFlow × List PairEffect :=
  match flow.phase with
  | .response publicKey =>
      match line >>= acceptedIn dart with
      | .error e => flow.fails e
      | .ok true =>
          flow.awaits (.sealingChallenge publicKey
            (env.service.encryptEnvelope dart publicKey challengeRequestMap env.random))
      | .ok false => (flow.goto (.closing false), [.close])
  | .challengeLine publicKey =>
      match line >>= envelopeIn dart with
      | .error e => flow.fails e
      | .ok envelope =>
          flow.awaits (.openingChallenge publicKey
            (env.service.decryptEnvelope dart publicKey envelope))
  | .authorizationLine publicKey =>
      match line >>= envelopeIn dart with
      | .error e => flow.fails e
      | .ok envelope =>
          flow.awaits (.openingAuthorization (env.service.decryptEnvelope dart publicKey envelope))
  -- the timeout has thrown before
  | _ => (flow, [])

/-- What a socket comes to, with the result of `_readLine` if there is one. -/
def socketDoes (env : PairEnv) (does : ResponseSocket × Option (Except DartError DString)) :
    PairFlow × List PairEffect :=
  match does.2 with
  | none => (flow.withSocket does.1, [])
  | some line => (flow.withSocket does.1).answered dart env (line.mapError .thrown)

/-- A request is written, and `_readLine` called for the response. -/
def sends (phase : PairPhase) (request : DartMap) (env : PairEnv) : PairFlow × List PairEffect :=
  let (next, effects) := (flow.goto phase).socketDoes dart env
    (flow.socket.readLine.getD (flow.socket, some (.error alreadyListened)))
  (next, .write (requestLine dart request) :: effects)

/-- The challenge has been opened: its nonce is decoded, and `signChallenge` called. -/
def signs (publicKey : DString) (challenge : DartMap) : PairFlow × List PairEffect :=
  flow.tries (asString (challenge.get "nonce") >>= Main.decodeHex) fun nonce =>
    flow.tries (asInt (challenge.get "timestamp")) fun timestamp =>
      (flow.goto (.signing publicKey (challenge.get "nonce") timestamp), [.sign nonce timestamp])

/-- The verdict has been opened. -/
def concludes (authorized : DartMap) : PairFlow × List PairEffect :=
  if flow.mounted then
    (flow.goto (.closing true),
      [.setStatus (if isTrue (authorized.get "authorized") then .verified else .challengeRejected),
        .close])
  else flow.awaits .returned

/-- The method goes on from an await, when what it awaits completes. -/
def step : PairPhase → PairEvent → Option (PairFlow × List PairEffect)
  | .publicKey result, .key key =>
      some (flow.tries key fun key => flow.awaits (.exchangePublicKey result key))
  | .exchangePublicKey result key, .key exchangeKey =>
      some (flow.tries exchangeKey fun exchangeKey =>
        flow.awaits (.establishSession result key exchangeKey))
  | .establishSession result key exchangeKey, .session done =>
      some (flow.tries done fun _ => flow.awaits (.connecting result key exchangeKey))
  | .connecting result key exchangeKey, .connected done env =>
      some (flow.tries done fun _ =>
        ({ flow with connected := true } : PairFlow).sends dart (.response (hex key.1))
          (pairRequestMap (hex key.1) (hex exchangeKey.1) result.pairingCode) env)
  | .sealingChallenge publicKey envelope, .sealed env =>
      some (flow.tries envelope fun envelope =>
        flow.sends dart (.challengeLine publicKey) envelope env)
  | .openingChallenge publicKey challenge, .opened _ =>
      some (flow.tries challenge fun challenge => flow.signs publicKey challenge)
  | .signing publicKey nonce timestamp, .signed signature env =>
      some (flow.tries signature fun signature =>
        flow.awaits (.sealingVerify publicKey (env.service.encryptEnvelope dart publicKey
          (verifyRequestMap nonce timestamp signature) env.random)))
  | .sealingVerify publicKey envelope, .sealed env =>
      some (flow.tries envelope fun envelope =>
        flow.sends dart (.authorizationLine publicKey) envelope env)
  | .openingAuthorization authorized, .opened _ =>
      some (flow.tries authorized fun authorized => flow.concludes authorized)
  | .closing accepted, .closed done =>
      some (flow.tries done fun _ =>
        (flow.goto .returned,
          if flow.mounted && !accepted then [.setStatus .pairingRejected] else []))
  | .response _, .timeout | .challengeLine _, .timeout | .authorizationLine _, .timeout =>
      some (flow.fails .timeout)
  | _, .chunk bytes env =>
      if flow.connected then
        (responseMachine.step flow.socket (.chunk bytes)).map (flow.socketDoes dart env)
      else none
  | _, .peerClosed failure env =>
      if flow.connected then
        (responseMachine.step flow.socket (.close failure)).map (flow.socketDoes dart env)
      else none
  | _, .unmount => some ({ flow with mounted := false }, [])
  | _, _ => none

end PairFlow

/-- One call of `pairFromQr`, with the desktop, the plugins and the clock in any order. -/
def pairMachine : Machine PairFlow PairEvent (List PairEffect) where
  step flow event := flow.step dart flow.phase event

abbrev PairEntry := Entry PairFlow PairEvent (List PairEffect)

/-! ## The law -/

/-- What others have seen. -/
def effects (tr : List PairEntry) : List PairEffect := tr.flatMap Entry.out

def chunkOf (x : PairEntry) : Uint8List :=
  match x.act with
  | .chunk bytes _ => bytes
  | _ => []

/-- The bytes the desktop has sent. -/
def arrived (tr : List PairEntry) : Uint8List := tr.flatMap chunkOf

/-- The first line the desktop has sent is a response that accepts the pairing, or not. -/
def Responds (tr : List PairEntry) (accepted : Bool) : Prop :=
  ∃ line text, (frames 10 (arrived tr)).head? = some line ∧ decodeLine line = .ok text ∧
    acceptedIn dart text = .ok accepted

/-- A pairing request for the payload. -/
def IsPairLine (result : PairingPayload) (line : Uint8List) : Prop :=
  ∃ key exchangeKey : Bytes 32, line = requestLine dart
    (pairRequestMap (hex key.1) (hex exchangeKey.1) result.pairingCode)

/-- A challenge request that was sealed. -/
def IsChallengeLine (line : Uint8List) : Prop :=
  ∃ (env : PairEnv) (publicKey : DString) (envelope : DartMap),
    env.service.encryptEnvelope dart publicKey challengeRequestMap env.random = .ok envelope ∧
      line = requestLine dart envelope

/-- The status is not set, or to a failure. -/
def Fails (report : List PairEffect) : Prop :=
  report = [] ∨ ∃ error, report = [.setStatus (.pairingFailed error)]

/-- **What a pairing comes to.** -/
inductive Ending (result : Option PairingPayload) (tr : List PairEntry) : List PairEffect → Prop
  | unconnected {report : List PairEffect} (hreport : Fails report) : Ending result tr report
  | unanswered {payload : PairingPayload} {pair : Uint8List} {report : List PairEffect}
      (hresult : result = some payload) (hpair : IsPairLine dart payload pair)
      (hreport : Fails report) : Ending result tr (.write pair :: report)
  | rejected {payload : PairingPayload} {pair : Uint8List} {report : List PairEffect}
      (hresult : result = some payload) (hpair : IsPairLine dart payload pair)
      (hanswer : Responds dart tr false)
      (hreport : Fails report ∨ report = [.setStatus .pairingRejected]) :
      Ending result tr (.write pair :: .close :: report)
  /-- the second call of `_readLine` throws -/
  | accepted {payload : PairingPayload} {pair challenge : Uint8List} {report : List PairEffect}
      (hresult : result = some payload) (hpair : IsPairLine dart payload pair)
      (hchallenge : IsChallengeLine dart challenge) (hanswer : Responds dart tr true)
      (hreport : report = [] ∨
        report = [.setStatus (.pairingFailed (.thrown alreadyListened))]) :
      Ending result tr (.write pair :: .write challenge :: report)

section Law

variable {dart} {tr : List PairEntry} {x : PairEntry} {accepted : Bool}
  {result : Option PairingPayload} {seen : List PairEffect}

@[simp] theorem effects_snoc (tr : List PairEntry) (x : PairEntry) :
    effects (tr ++ [x]) = effects tr ++ x.out := by
  simp [effects]

@[simp] theorem arrived_snoc (tr : List PairEntry) (x : PairEntry) :
    arrived (tr ++ [x]) = arrived tr ++ chunkOf x := by
  simp [arrived]

/-- The first line stays. -/
theorem Responds.snoc (h : Responds dart tr accepted) : Responds dart (tr ++ [x]) accepted := by
  obtain ⟨line, text, hline, htext, haccepted⟩ := h
  refine ⟨line, text, ?_, htext, haccepted⟩
  rw [arrived_snoc, frames_append, List.head?_append, hline, Option.some_or]

/-- It cannot be both. -/
theorem Responds.unique (h : Responds dart tr true) : ¬ Responds dart tr false := by
  rintro ⟨line, text, hline, htext, hrejected⟩
  obtain ⟨line', text', hline', htext', haccepted⟩ := h
  obtain rfl := Option.some.inj (hline.symm.trans hline')
  obtain rfl := Except.ok.inj (htext.symm.trans htext')
  cases hrejected.symm.trans haccepted

theorem Ending.snoc (h : Ending dart result tr seen) : Ending dart result (tr ++ [x]) seen := by
  cases h with
  | unconnected hreport => exact .unconnected hreport
  | unanswered hresult hpair hreport => exact .unanswered hresult hpair hreport
  | rejected hresult hpair hanswer hreport =>
      exact .rejected hresult hpair hanswer.snoc hreport
  | accepted hresult hpair hchallenge hanswer hreport =>
      exact .accepted hresult hpair hchallenge hanswer.snoc hreport

/-! ## Where a pairing can be -/

/-- The keys are fetched, and the socket is connected. -/
def PairPhase.Prepares (phase : PairPhase) (payload : PairingPayload) : Prop :=
  match phase with
  | .publicKey p | .exchangePublicKey p _ | .establishSession p _ _ | .connecting p _ _ =>
      p = payload
  | _ => False

variable (dart) in
/-- What a history comes to, by the phase. -/
inductive PairStage (result : Option PairingPayload) (tr : List PairEntry) (flow : PairFlow) :
    Prop
  | preparing {payload : PairingPayload} (hresult : result = some payload)
      (hphase : flow.phase.Prepares payload) (hconnected : flow.connected = false)
      (hsocket : flow.socket = .connected) (hseen : effects tr = []) (hbytes : arrived tr = [])
  | waiting {payload : PairingPayload} {publicKey : DString} {pair : Uint8List}
      (hphase : flow.phase = .response publicKey) (hresult : result = some payload)
      (hpair : IsPairLine dart payload pair) (hseen : effects tr = [.write pair])
      (hsub : flow.socket.subscription = .reading (arrived tr)) (hline : 10 ∉ arrived tr)
      (hopen : flow.socket.closed = false)
  | sealing {payload : PairingPayload} {publicKey : DString} {pair : Uint8List} {env : PairEnv}
      (hphase : flow.phase = .sealingChallenge publicKey
        (env.service.encryptEnvelope dart publicKey challengeRequestMap env.random))
      (hresult : result = some payload) (hpair : IsPairLine dart payload pair)
      (hseen : effects tr = [.write pair]) (hsub : flow.socket.subscription = .cancelled)
      (hanswer : Responds dart tr true)
  | closing {payload : PairingPayload} {pair : Uint8List} (hphase : flow.phase = .closing false)
      (hresult : result = some payload) (hpair : IsPairLine dart payload pair)
      (hseen : effects tr = [.write pair, .close])
      (hsub : flow.socket.subscription = .cancelled) (hanswer : Responds dart tr false)
  | returned (hphase : flow.phase = .returned) (hending : Ending dart result tr (effects tr))

/-- The method fails, after what others have seen. -/
theorem stage_of_fails {flow : PairFlow} {error : PairFailure}
    (hending : ∀ report, Fails report → Ending dart result (tr ++ [x]) (effects tr ++ report))
    (hdoes : flow.fails error = (x.post, x.out)) : PairStage dart result (tr ++ [x]) x.post := by
  obtain ⟨hpost, hout⟩ := Prod.mk.inj hdoes
  refine .returned (by rw [← hpost]; rfl) ?_
  rw [effects_snoc]
  refine hending _ ?_
  rw [← hout]
  split
  · exact .inr ⟨error, rfl⟩
  · exact .inl rfl

/-- What may throw does, or the method goes on. -/
theorem tries_case {α : Type} {flow : PairFlow} {attempt : Except DartError α}
    {next : α → PairFlow × List PairEffect} {does : PairFlow × List PairEffect}
    (h : flow.tries attempt next = does) :
    (∃ e, flow.fails (.thrown e) = does) ∨ ∃ a, attempt = .ok a ∧ next a = does := by
  cases attempt with
  | error e => exact .inl ⟨e, h⟩
  | ok a => exact .inr ⟨a, rfl, h⟩

/-- A step that shows nothing and brings nothing. -/
theorem quiet_step (tr : List PairEntry) (hout : x.out = []) (hchunk : chunkOf x = []) :
    effects (tr ++ [x]) = effects tr ∧ arrived (tr ++ [x]) = arrived tr := by
  rw [effects_snoc, arrived_snoc, hout, hchunk, List.append_nil, List.append_nil]
  exact ⟨rfl, rfl⟩

/-- The user leaves the page. -/
theorem stage_unmount (hdoes : (pairMachine dart).Does x) (hact : x.act = .unmount)
    (h : PairStage dart result tr x.pre) : PairStage dart result (tr ++ [x]) x.post := by
  have hstep : ({ x.pre with mounted := false } : PairFlow) = x.post ∧ [] = x.out := by
    simp only [Machine.Does, pairMachine, hact] at hdoes
    cases hphase : x.pre.phase <;> rw [hphase] at hdoes <;>
      exact Prod.mk.inj (Option.some.inj hdoes)
  obtain ⟨hpost, hout⟩ := hstep
  obtain ⟨heffects, harrived⟩ := quiet_step tr hout.symm (by rw [chunkOf, hact])
  rw [← hpost]
  cases h with
  | preparing hresult hphase hconnected hsocket hseen hbytes =>
      exact .preparing hresult hphase hconnected hsocket (heffects.trans hseen)
        (harrived.trans hbytes)
  | waiting hphase hresult hpair hseen hsub hline hopen =>
      exact .waiting hphase hresult hpair (heffects.trans hseen) (harrived ▸ hsub)
        (harrived ▸ hline) hopen
  | sealing hphase hresult hpair hseen hsub hanswer =>
      exact .sealing hphase hresult hpair (heffects.trans hseen) hsub hanswer.snoc
  | closing hphase hresult hpair hseen hsub hanswer =>
      exact .closing hphase hresult hpair (heffects.trans hseen) hsub hanswer.snoc
  | returned hphase hending => exact .returned hphase (heffects ▸ hending.snoc)

/-- The pairing request is written, and the first `_readLine` waits. -/
theorem stage_of_connected {payload : PairingPayload} {key exchangeKey : Bytes 32} {env : PairEnv}
    (hresult : result = some payload) (hsocket : x.pre.socket = .connected)
    (hseen : effects tr = []) (hbytes : arrived (tr ++ [x]) = [])
    (hdoes : ({ x.pre with connected := true } : PairFlow).sends dart (.response (hex key.1))
      (pairRequestMap (hex key.1) (hex exchangeKey.1) payload.pairingCode) env =
        (x.post, x.out)) : PairStage dart result (tr ++ [x]) x.post := by
  have hreads : ResponseSocket.connected.readLine =
      some (⟨[], false, none, .reading []⟩, none) := rfl
  simp only [PairFlow.sends, hsocket, hreads, Option.getD_some, PairFlow.socketDoes,
    Prod.mk.injEq] at hdoes
  obtain ⟨hpost, hout⟩ := hdoes
  rw [← hpost]
  refine .waiting rfl hresult ⟨key, exchangeKey, rfl⟩ ?_ ?_ ?_ rfl
  · rw [effects_snoc, hseen, ← hout]
    rfl
  · rw [hbytes]
    rfl
  · rw [hbytes]
    exact List.not_mem_nil

/-- **What can happen before the socket is connected**: the method fails, goes on to the
next key or to the connection, or is connected and writes the request. -/
theorem preparing_step (hdoes : (pairMachine dart).Does x) {payload : PairingPayload}
    (hphase : x.pre.phase.Prepares payload) (hconnected : x.pre.connected = false) :
    x.act = .unmount ∨ chunkOf x = [] ∧
      ((∃ e, x.pre.fails (.thrown e) = (x.post, x.out)) ∨
        (∃ phase : PairPhase, phase.Prepares payload ∧ x.pre.awaits phase = (x.post, x.out)) ∨
        ∃ (key exchangeKey : Bytes 32) (env : PairEnv),
          ({ x.pre with connected := true } : PairFlow).sends dart (.response (hex key.1))
            (pairRequestMap (hex key.1) (hex exchangeKey.1) payload.pairingCode) env =
              (x.post, x.out)) := by
  simp only [Machine.Does, pairMachine] at hdoes
  unfold chunkOf
  cases hp : x.pre.phase with
  | publicKey p =>
      rw [hp] at hdoes hphase
      obtain rfl : p = payload := hphase
      cases hact : x.act with
      | unmount => exact .inl rfl
      | chunk | peerClosed => simp [hact, PairFlow.step, hconnected] at hdoes
      | key key =>
          rw [hact] at hdoes
          obtain hfails | ⟨key, -, hgoes⟩ := tries_case (Option.some.inj hdoes)
          · exact .inr ⟨rfl, .inl hfails⟩
          · exact .inr ⟨rfl, .inr (.inl ⟨.exchangePublicKey p key, rfl, hgoes⟩)⟩
      | _ => simp [hact, PairFlow.step] at hdoes
  | exchangePublicKey p key =>
      rw [hp] at hdoes hphase
      obtain rfl : p = payload := hphase
      cases hact : x.act with
      | unmount => exact .inl rfl
      | chunk | peerClosed => simp [hact, PairFlow.step, hconnected] at hdoes
      | key exchangeKey =>
          rw [hact] at hdoes
          obtain hfails | ⟨exchangeKey, -, hgoes⟩ := tries_case (Option.some.inj hdoes)
          · exact .inr ⟨rfl, .inl hfails⟩
          · exact .inr ⟨rfl, .inr (.inl ⟨.establishSession p key exchangeKey, rfl, hgoes⟩)⟩
      | _ => simp [hact, PairFlow.step] at hdoes
  | establishSession p key exchangeKey =>
      rw [hp] at hdoes hphase
      obtain rfl : p = payload := hphase
      cases hact : x.act with
      | unmount => exact .inl rfl
      | chunk | peerClosed => simp [hact, PairFlow.step, hconnected] at hdoes
      | session done =>
          rw [hact] at hdoes
          obtain hfails | ⟨-, -, hgoes⟩ := tries_case (Option.some.inj hdoes)
          · exact .inr ⟨rfl, .inl hfails⟩
          · exact .inr ⟨rfl, .inr (.inl ⟨.connecting p key exchangeKey, rfl, hgoes⟩)⟩
      | _ => simp [hact, PairFlow.step] at hdoes
  | connecting p key exchangeKey =>
      rw [hp] at hdoes hphase
      obtain rfl : p = payload := hphase
      cases hact : x.act with
      | unmount => exact .inl rfl
      | chunk | peerClosed => simp [hact, PairFlow.step, hconnected] at hdoes
      | connected done env =>
          rw [hact] at hdoes
          obtain hfails | ⟨-, -, hgoes⟩ := tries_case (Option.some.inj hdoes)
          · exact .inr ⟨rfl, .inl hfails⟩
          · exact .inr ⟨rfl, .inr (.inr ⟨key, exchangeKey, env, hgoes⟩)⟩
      | _ => simp [hact, PairFlow.step] at hdoes
  | _ =>
      rw [hp] at hphase
      exact hphase.elim

/-- A step before the socket is connected. -/
theorem stage_preparing (hdoes : (pairMachine dart).Does x) {payload : PairingPayload}
    (hresult : result = some payload) (hphase : x.pre.phase.Prepares payload)
    (hconnected : x.pre.connected = false) (hsocket : x.pre.socket = .connected)
    (hseen : effects tr = []) (hbytes : arrived tr = []) :
    PairStage dart result (tr ++ [x]) x.post := by
  obtain hact | ⟨hchunk, ⟨e, hfails⟩ | ⟨phase, hnext, hgoes⟩ | ⟨key, exchangeKey, env, hsends⟩⟩ :=
    preparing_step hdoes hphase hconnected
  · exact stage_unmount hdoes hact
      (.preparing hresult hphase hconnected hsocket hseen hbytes)
  · refine stage_of_fails (fun report hreport => ?_) hfails
    rw [hseen]
    exact .unconnected hreport
  · obtain ⟨hpost, hout⟩ := Prod.mk.inj hgoes
    obtain ⟨heffects, harrived⟩ := quiet_step tr hout.symm hchunk
    rw [← hpost]
    exact .preparing hresult hnext hconnected hsocket (heffects.trans hseen)
      (harrived.trans hbytes)
  · refine stage_of_connected hresult hsocket hseen ?_ hsends
    rw [arrived_snoc, hbytes, hchunk]
    rfl

/-- **The first line has been read, or nothing**: the method fails, goes on to the challenge,
or closes the socket. -/
theorem stage_of_answer (socket : ResponseSocket) (env : PairEnv)
    (line : Except DartError DString) {payload : PairingPayload} {publicKey : DString}
    {pair : Uint8List}
    (hphase : x.pre.phase = .response publicKey) (hresult : result = some payload)
    (hpair : IsPairLine dart payload pair) (hseen : effects tr = [.write pair])
    (hsub : socket.subscription = .cancelled)
    (hread : ∀ text accepted, line = .ok text → acceptedIn dart text = .ok accepted →
      Responds dart (tr ++ [x]) accepted)
    (hdoes : (x.pre.withSocket socket).answered dart env (line.mapError .thrown) =
      (x.post, x.out)) :
    PairStage dart result (tr ++ [x]) x.post := by
  have hending : ∀ report, Fails report →
      Ending dart result (tr ++ [x]) (effects tr ++ report) := by
    rw [hseen]
    exact fun _ hreport => .unanswered hresult hpair hreport
  simp only [PairFlow.answered, PairFlow.withSocket, hphase] at hdoes
  cases line with
  | error e => exact stage_of_fails hending hdoes
  | ok text =>
      have hbind : (Except.mapError PairFailure.thrown (.ok text) >>= acceptedIn dart) =
          acceptedIn dart text := rfl
      rw [hbind] at hdoes
      cases haccepted : acceptedIn dart text with
      | error e =>
          rw [haccepted] at hdoes
          exact stage_of_fails hending hdoes
      | ok accepted =>
          rw [haccepted] at hdoes
          have hanswer := hread text accepted rfl haccepted
          cases accepted with
          | true =>
              obtain ⟨hpost, hout⟩ := Prod.mk.inj hdoes
              rw [← hpost]
              refine .sealing rfl hresult hpair ?_ hsub hanswer
              rw [effects_snoc, hseen, ← hout]
              rfl
          | false =>
              obtain ⟨hpost, hout⟩ := Prod.mk.inj hdoes
              rw [← hpost]
              refine .closing rfl hresult hpair ?_ hsub hanswer
              rw [effects_snoc, hseen, ← hout]
              rfl

/-- A step while the first `_readLine` waits. -/
theorem stage_waiting (hdoes : (pairMachine dart).Does x) {payload : PairingPayload}
    {publicKey : DString} {pair : Uint8List} (hphase : x.pre.phase = .response publicKey)
    (hresult : result = some payload) (hpair : IsPairLine dart payload pair)
    (hseen : effects tr = [.write pair])
    (hsub : x.pre.socket.subscription = .reading (arrived tr)) (hline : 10 ∉ arrived tr)
    (hopen : x.pre.socket.closed = false) : PairStage dart result (tr ++ [x]) x.post := by
  have hstage : PairStage dart result tr x.pre :=
    .waiting hphase hresult hpair hseen hsub hline hopen
  have hsteps := hdoes
  simp only [Machine.Does, pairMachine, hphase] at hsteps
  cases hact : x.act with
  | unmount => exact stage_unmount hdoes hact hstage
  | timeout =>
      rw [hact] at hsteps
      refine stage_of_fails (fun report hreport => ?_) (Option.some.inj hsteps)
      rw [hseen]
      exact .unanswered hresult hpair hreport
  | chunk bytes env =>
      simp only [hact, PairFlow.step] at hsteps
      split at hsteps
      · have hchunk : (arrived tr) ++ [bytes].flatten = arrived (tr ++ [x]) := by
          rw [arrived_snoc, chunkOf, hact]
          simp
        simp only [responseMachine, hopen, hsub, Bool.false_eq_true, if_false, Option.map_some,
          Option.some.injEq] at hsteps
        obtain ⟨line, hhead, hresume⟩ | ⟨-, hclosed, -⟩ | ⟨hnone, -, hresume⟩ :=
          resume_spec hline x.pre.socket [bytes]
        · rw [hresume] at hsteps
          refine stage_of_answer ⟨[], x.pre.socket.closed, x.pre.socket.failure, .cancelled⟩ env
            (decodeLine line) hphase hresult hpair hseen rfl ?_ hsteps
          intro text accepted htext haccepted
          exact ⟨line, text, hchunk ▸ hhead, htext, haccepted⟩
        · rw [hopen] at hclosed
          cases hclosed
        · rw [hresume, hchunk] at hsteps
          obtain ⟨hpost, hout⟩ := Prod.mk.inj hsteps
          rw [← hpost]
          refine .waiting hphase hresult hpair ?_ rfl (hchunk ▸ hnone) hopen
          rw [effects_snoc, hseen, ← hout]
          rfl
      · cases hsteps
  | peerClosed failure env =>
      simp only [hact, PairFlow.step] at hsteps
      split at hsteps
      · simp only [responseMachine, hopen, Bool.false_eq_true, if_false, ResponseSocket.ends, hsub,
          Option.map_some, Option.some.injEq] at hsteps
        obtain ⟨line, hhead, -⟩ | ⟨-, -, hresume⟩ | ⟨-, hclosed, -⟩ :=
          resume_spec hline ⟨x.pre.socket.incoming, true, failure, .reading (arrived tr)⟩ []
        · rw [List.flatten_nil, List.append_nil, frames_of_not_mem hline] at hhead
          cases hhead
        · rw [hresume] at hsteps
          refine stage_of_answer ⟨[], true, failure, .cancelled⟩ env
            (.error (failure.getD connectionClosed)) hphase hresult hpair hseen rfl ?_ hsteps
          intro text accepted htext
          cases htext
        · cases hclosed
      · cases hsteps
  | _ => simp [hact, PairFlow.step] at hsteps

/-- Once the subscription is cancelled, what the desktop sends changes nothing. -/
theorem socketDoes_cancelled {flow next : PairFlow} {env : PairEnv} {event : SocketEvent}
    {out : List PairEffect} (hsub : flow.socket.subscription = .cancelled)
    (hevent : event ≠ .readLine)
    (h : (responseMachine.step flow.socket event).map (flow.socketDoes dart env) =
      some (next, out)) :
    out = [] ∧ next.phase = flow.phase ∧ next.socket.subscription = .cancelled := by
  obtain ⟨does, hstep, hdoes⟩ := Option.map_eq_some_iff.mp h
  have hquiet : does.2 = none ∧ does.1.subscription = .cancelled := by
    cases event with
    | readLine => exact absurd rfl hevent
    | chunk bytes =>
        simp only [responseMachine, hsub] at hstep
        split at hstep
        · cases hstep
        · cases hstep
          exact ⟨rfl, hsub⟩
    | close failure =>
        obtain ⟨hcancelled, -, hout⟩ := close_cancelled hsub (Option.some.inj hstep)
        exact ⟨hout, hcancelled⟩
  rw [PairFlow.socketDoes, hquiet.1] at hdoes
  obtain ⟨rfl, rfl⟩ := Prod.mk.inj hdoes
  exact ⟨rfl, rfl, hquiet.2⟩

/-- A step while the challenge request is sealed: it is written, and the second call of
`_readLine` throws. -/
theorem stage_sealing (hdoes : (pairMachine dart).Does x) {payload : PairingPayload}
    {publicKey : DString} {pair : Uint8List} {env : PairEnv}
    (hphase : x.pre.phase = .sealingChallenge publicKey
      (env.service.encryptEnvelope dart publicKey challengeRequestMap env.random))
    (hresult : result = some payload) (hpair : IsPairLine dart payload pair)
    (hseen : effects tr = [.write pair]) (hsub : x.pre.socket.subscription = .cancelled)
    (hanswer : Responds dart tr true) : PairStage dart result (tr ++ [x]) x.post := by
  have hstage : PairStage dart result tr x.pre :=
    .sealing hphase hresult hpair hseen hsub hanswer
  -- what the desktop sends is not read
  have hquiet : x.out = [] → x.post.phase = x.pre.phase →
      x.post.socket.subscription = .cancelled → PairStage dart result (tr ++ [x]) x.post := by
    intro hout hsame hcancelled
    refine .sealing (hsame.trans hphase) hresult hpair ?_ hcancelled hanswer.snoc
    rw [effects_snoc, hseen, hout]
    rfl
  have hsteps := hdoes
  simp only [Machine.Does, pairMachine, hphase] at hsteps
  cases hact : x.act with
  | unmount => exact stage_unmount hdoes hact hstage
  | chunk bytes env' =>
      simp only [hact, PairFlow.step] at hsteps
      split at hsteps
      · obtain ⟨hout, hsame, hcancelled⟩ := socketDoes_cancelled hsub (by simp) hsteps
        exact hquiet hout hsame hcancelled
      · cases hsteps
  | peerClosed failure env' =>
      simp only [hact, PairFlow.step] at hsteps
      split at hsteps
      · obtain ⟨hout, hsame, hcancelled⟩ := socketDoes_cancelled hsub (by simp) hsteps
        exact hquiet hout hsame hcancelled
      · cases hsteps
  | sealed env' =>
      rw [hact] at hsteps
      obtain ⟨e, hfails⟩ | ⟨envelope, hsealed, hsends⟩ := tries_case (Option.some.inj hsteps)
      · refine stage_of_fails (fun report hreport => ?_) hfails
        rw [hseen]
        exact .unanswered hresult hpair hreport
      · have hreads : x.pre.socket.readLine =
            some (x.pre.socket, some (.error alreadyListened)) := by
          rw [ResponseSocket.readLine, hsub]
        simp only [PairFlow.sends, hreads, Option.getD_some, PairFlow.socketDoes] at hsends
        obtain ⟨hpost, hout⟩ := Prod.mk.inj hsends
        rw [← hpost]
        refine .returned rfl ?_
        rw [effects_snoc, hseen, ← hout]
        refine .accepted hresult hpair ⟨env, publicKey, envelope, hsealed, rfl⟩ hanswer.snoc ?_
        cases hmounted : x.pre.mounted with
        | true => exact .inr (by simp [PairFlow.answered, PairFlow.withSocket, PairFlow.goto,
            PairFlow.fails, hmounted, Except.mapError, bind, Except.bind])
        | false => exact .inl (by simp [PairFlow.answered, PairFlow.withSocket, PairFlow.goto,
            PairFlow.fails, hmounted, Except.mapError, bind, Except.bind])
  | _ => simp [hact, PairFlow.step] at hsteps

/-- A step while the socket is closed. -/
theorem stage_closing (hdoes : (pairMachine dart).Does x) {payload : PairingPayload}
    {pair : Uint8List} (hphase : x.pre.phase = .closing false) (hresult : result = some payload)
    (hpair : IsPairLine dart payload pair) (hseen : effects tr = [.write pair, .close])
    (hsub : x.pre.socket.subscription = .cancelled) (hanswer : Responds dart tr false) :
    PairStage dart result (tr ++ [x]) x.post := by
  have hstage : PairStage dart result tr x.pre :=
    .closing hphase hresult hpair hseen hsub hanswer
  have hquiet : x.out = [] → x.post.phase = x.pre.phase →
      x.post.socket.subscription = .cancelled → PairStage dart result (tr ++ [x]) x.post := by
    intro hout hsame hcancelled
    refine .closing (hsame.trans hphase) hresult hpair ?_ hcancelled hanswer.snoc
    rw [effects_snoc, hseen, hout]
    rfl
  have hsteps := hdoes
  simp only [Machine.Does, pairMachine, hphase] at hsteps
  cases hact : x.act with
  | unmount => exact stage_unmount hdoes hact hstage
  | chunk bytes env =>
      simp only [hact, PairFlow.step] at hsteps
      split at hsteps
      · obtain ⟨hout, hsame, hcancelled⟩ := socketDoes_cancelled hsub (by simp) hsteps
        exact hquiet hout hsame hcancelled
      · cases hsteps
  | peerClosed failure env =>
      simp only [hact, PairFlow.step] at hsteps
      split at hsteps
      · obtain ⟨hout, hsame, hcancelled⟩ := socketDoes_cancelled hsub (by simp) hsteps
        exact hquiet hout hsame hcancelled
      · cases hsteps
  | closed done =>
      rw [hact] at hsteps
      obtain ⟨e, hfails⟩ | ⟨-, -, hgoes⟩ := tries_case (Option.some.inj hsteps)
      · refine stage_of_fails (fun report hreport => ?_) hfails
        rw [hseen]
        exact .rejected hresult hpair hanswer.snoc (.inl hreport)
      · obtain ⟨hpost, hout⟩ := Prod.mk.inj hgoes
        rw [← hpost]
        refine .returned rfl ?_
        rw [effects_snoc, hseen, ← hout]
        refine .rejected hresult hpair hanswer.snoc ?_
        cases x.pre.mounted with
        | true => exact .inr rfl
        | false => exact .inl (.inl rfl)
  | _ => simp [hact, PairFlow.step] at hsteps

/-- When the method has returned, nothing more comes of it. -/
theorem stage_returned (hdoes : (pairMachine dart).Does x) (hphase : x.pre.phase = .returned)
    (hending : Ending dart result tr (effects tr)) :
    PairStage dart result (tr ++ [x]) x.post := by
  have hquiet : x.out = [] → x.post.phase = .returned →
      PairStage dart result (tr ++ [x]) x.post := by
    intro hout hreturned
    refine .returned hreturned ?_
    rw [effects_snoc, hout, List.append_nil]
    exact hending.snoc
  have hsocket : ∀ env does, x.pre.socketDoes dart env does = (x.post, x.out) →
      PairStage dart result (tr ++ [x]) x.post := by
    intro env does h
    unfold PairFlow.socketDoes at h
    split at h
    · obtain ⟨hpost, hout⟩ := Prod.mk.inj h
      exact hquiet hout.symm (by rw [← hpost]; exact hphase)
    · simp only [PairFlow.answered, PairFlow.withSocket, hphase] at h
      obtain ⟨hpost, hout⟩ := Prod.mk.inj h
      exact hquiet hout.symm (by rw [← hpost])
  have hsteps := hdoes
  simp only [Machine.Does, pairMachine, hphase] at hsteps
  cases hact : x.act with
  | unmount => exact stage_unmount hdoes hact (.returned hphase hending)
  | chunk bytes env =>
      simp only [hact, PairFlow.step] at hsteps
      split at hsteps
      · obtain ⟨does, -, h⟩ := Option.map_eq_some_iff.mp hsteps
        exact hsocket env does h
      · cases hsteps
  | peerClosed failure env =>
      simp only [hact, PairFlow.step] at hsteps
      split at hsteps
      · obtain ⟨does, -, h⟩ := Option.map_eq_some_iff.mp hsteps
        exact hsocket env does h
      · cases hsteps
  | _ => simp [hact, PairFlow.step] at hsteps

/-- Every step leaves the pairing in one of the stages. -/
theorem pairStage_step (hdoes : (pairMachine dart).Does x) (h : PairStage dart result tr x.pre) :
    PairStage dart result (tr ++ [x]) x.post := by
  cases h with
  | preparing hresult hphase hconnected hsocket hseen hbytes =>
      exact stage_preparing hdoes hresult hphase hconnected hsocket hseen hbytes
  | waiting hphase hresult hpair hseen hsub hline hopen =>
      exact stage_waiting hdoes hphase hresult hpair hseen hsub hline hopen
  | sealing hphase hresult hpair hseen hsub hanswer =>
      exact stage_sealing hdoes hphase hresult hpair hseen hsub hanswer
  | closing hphase hresult hpair hseen hsub hanswer =>
      exact stage_closing hdoes hphase hresult hpair hseen hsub hanswer
  | returned hphase hending => exact stage_returned hdoes hphase hending

theorem pairStage_run {flow : PairFlow}
    (hrun : Run (pairMachine dart) (.scanned result) tr flow) :
    PairStage dart result tr flow := by
  refine hrun.history (P := PairStage dart result) ?_ fun _ _ _ hdoes h => pairStage_step hdoes h
  cases result with
  | none => exact .returned rfl (.unconnected (.inl rfl))
  | some payload => exact .preparing rfl rfl rfl rfl rfl rfl

/-! ## The result -/

/-- The lines written to the socket. -/
def requests (tr : List PairEntry) : List Uint8List :=
  (effects tr).filterMap fun effect =>
    match effect with
    | .write line => some line
    | _ => none

variable (dart) in
/-- **No pairing is completed.**  The challenge is never signed, no status tells of a
verdict, and the socket is closed for a desktop that turns the phone down only: one that
accepts it gets a challenge request, and the pairing fails. -/
structure Incomplete (result : Option PairingPayload) (tr : List PairEntry) : Prop where
  written : requests tr = [] ∨ ∃ payload pair, result = some payload ∧
    IsPairLine dart payload pair ∧ (requests tr = [pair] ∨ Responds dart tr true ∧
      ∃ challenge, IsChallengeLine dart challenge ∧ requests tr = [pair, challenge])
  unsigned : ∀ nonce timestamp, .sign nonce timestamp ∉ effects tr
  status : ∀ status, .setStatus status ∈ effects tr →
    (∃ error, status = .pairingFailed error) ∨
      status = .pairingRejected ∧ Responds dart tr false
  closes : .close ∈ effects tr → Responds dart tr false

/-- What a pairing comes to says so. -/
theorem Ending.incomplete (h : Ending dart result tr (effects tr)) :
    Incomplete dart result tr := by
  generalize hseen : effects tr = seen at h
  cases h with
  | unconnected hreport =>
      rcases hreport with rfl | ⟨error, rfl⟩ <;>
        exact ⟨.inl (by simp [requests, hseen]), by simp [hseen], by simp [hseen], by simp [hseen]⟩
  | @unanswered payload pair _ hresult hpair hreport =>
      rcases hreport with rfl | ⟨error, rfl⟩ <;>
        exact ⟨.inr ⟨payload, pair, hresult, hpair, .inl (by simp [requests, hseen])⟩,
          by simp [hseen], by simp [hseen], by simp [hseen]⟩
  | @rejected payload pair _ hresult hpair hanswer hreport =>
      rcases hreport with (rfl | ⟨error, rfl⟩) | rfl <;>
        exact ⟨.inr ⟨payload, pair, hresult, hpair, .inl (by simp [requests, hseen])⟩,
          by simp [hseen], by simp [hseen, hanswer], fun _ => hanswer⟩
  | @accepted payload pair challenge _ hresult hpair hchallenge hanswer hreport =>
      rcases hreport with rfl | rfl <;>
        exact ⟨.inr ⟨payload, pair, hresult, hpair,
            .inr ⟨hanswer, challenge, hchallenge, by simp [requests, hseen]⟩⟩,
          by simp [hseen], by simp [hseen], by simp [hseen]⟩

/-- What others have seen of a pairing, at any moment, is one of its endings. -/
theorem ending_run {flow : PairFlow} (hrun : Run (pairMachine dart) (.scanned result) tr flow) :
    Ending dart result tr (effects tr) := by
  cases pairStage_run hrun with
  | preparing hresult hphase hconnected hsocket hseen hbytes =>
      rw [hseen]
      exact .unconnected (.inl rfl)
  | waiting hphase hresult hpair hseen hsub hline hopen =>
      rw [hseen]
      exact .unanswered hresult hpair (.inl rfl)
  | sealing hphase hresult hpair hseen hsub hanswer =>
      rw [hseen]
      exact .unanswered hresult hpair (.inl rfl)
  | closing hphase hresult hpair hseen hsub hanswer =>
      rw [hseen]
      exact .rejected hresult hpair hanswer (.inl (.inl rfl))
  | returned hphase hending => exact hending

/-- An accepted pairing fails on the phone, and the socket stays open. -/
theorem accepted_fails {flow : PairFlow}
    (hrun : Run (pairMachine dart) (.scanned result) tr flow) (haccepted : Responds dart tr true) :
    (requests tr).length ≤ 2 ∧ .close ∉ effects tr ∧
      ∀ status, .setStatus status ∈ effects tr → ∃ error, status = .pairingFailed error := by
  obtain ⟨hwritten, -, hstatus, hcloses⟩ := (ending_run hrun).incomplete
  refine ⟨?_, fun hclose => haccepted.unique (hcloses hclose), fun status hseen => ?_⟩
  · rcases hwritten with hnone | ⟨_, _, -, -, hone | ⟨-, _, -, htwo⟩⟩
    · simp [hnone]
    · simp [hone]
    · simp [htwo]
  · obtain hfailed | ⟨-, hrejected⟩ := hstatus status hseen
    · exact hfailed
    · exact absurd hrejected haccepted.unique

/-- **The pairing is never completed**, whatever the desktop sends, and when. -/
theorem pairing_incomplete {flow : PairFlow}
    (hrun : Run (pairMachine dart) (.scanned result) tr flow) : Incomplete dart result tr :=
  (ending_run hrun).incomplete

end Law

/-! ## A pairing -/

/-- The desktop's response to an accepted pairing. -/
def pairedObject : Desktop.QJsonObject :=
  Desktop.pairedResponse (Desktop.Server.initial Desktop.samplePcId Desktop.sampleKeyPair)

/-- What the phone's JSON library reads, of that response only. -/
def readPaired (source : DString) : Option DartDynamic :=
  if source = Desktop.fromLatin1 (Desktop.compactJson pairedObject) then
    some (.map (pairedObject.map fun f => (f.1, Interop.dartValue f.2)))
  else none

def pairDart : DartLibraries :=
  { Interop.sampleDart Desktop.phoneRecording with jsonDecode := readPaired }

def samplePayload : PairingPayload :=
  ⟨ofString "192.168.1.10", 43295, hex Desktop.samplePcId,
    Interop.qrKey Desktop.sampleKeyPair, ofString "1122334455667788"⟩

/-- The service after `establishSession`. -/
def pairEnv : PairEnv :=
  ⟨⟨some Interop.phoneSigningSeed, some Interop.phonePrivateKey, Bytes.of? Desktop.phoneSecret⟩,
    fun _ => 7⟩

/-- The desktop accepts the phone, and the response comes in two chunks. -/
def acceptedPairing : List PairEntry :=
  (pairMachine pairDart).trace (.scanned (some samplePayload))
    [.key (.ok (pairDart.ed25519PublicKey Interop.phoneSigningSeed)),
      .key (.ok (pairDart.x25519PublicKey Interop.phonePrivateKey)), .session (.ok ()),
      .connected (.ok ()) pairEnv, .chunk (pairedLine.take 9) pairEnv,
      .chunk (pairedLine.drop 9) pairEnv, .sealed pairEnv]

theorem pairing_incomplete_sample :
    (effects acceptedPairing).drop 2 =
        [.setStatus (.pairingFailed (.thrown alreadyListened))] ∧
      Incomplete pairDart (some samplePayload) acceptedPairing :=
  ⟨by decide, pairing_incomplete (Run.trace _ _ _)⟩

end OpenBioUnlock.Mobile

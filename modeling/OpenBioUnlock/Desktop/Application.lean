import OpenBioUnlock.Desktop.Challenge
import OpenBioUnlock.Desktop.Framing
import OpenBioUnlock.Desktop.KeyState
import OpenBioUnlock.Desktop.MainWindow

/-!
# The desktop application

`main.cpp`: the server, the main window and the Bluetooth discovery, in one event loop.

The window hears the server and the discovery through signals, which are delivered while the
slot that emits them is running.  It is made after the server has been started, so what
`Server::start` emits reaches nobody.

* `run_clients`: the server of the application is the server with its sockets.
* `devices_listed`: which devices the window lists, and when these are the paired ones.
* `log_truthful`: what an entry of the log that says `authorized` stands for.
* `discovery_ends`: the state of the application from the end of the discovery on.
-/

namespace OpenBioUnlock.Desktop

open Codec Runs

/-! ## State -/

/-- What the discovery agent tells of a device. -/
structure DeviceInfo where
  lowEnergy : Bool
  deviceUuid : QString
  name : QString
  rssi : Int16

structure Application where
  server : Server
  window : MainWindow
  statusLabel : QString
  statusBar : QString
  /-- `agent_.isActive()` -/
  discovering : Bool
  /-- `exec` has not returned -/
  running : Bool

/-- What the event loop delivers. -/
inductive ApplicationEvent where
  /-- the pending connections, with the addresses of their peers -/
  | newConnection (pending : List (Socket × QString))
  | readyRead (socket : Socket) (chunk : QByteArray) (env : ℕ → Env)
  | disconnected (socket : Socket)
  | deviceDiscovered (device : DeviceInfo)
  /-- the signals `finished` and `canceled` of the agent -/
  | finished
  /-- with whether the agent goes on -/
  | errorOccurred (error : ℕ) (errorString : QString) (active : Bool)
  /-- the user edits a spin box, asks for a pairing code, quits -/
  | editNear (value : ℤ)
  | editFar (value : ℤ)
  | showPairing (addresses : List HostAddress) (env : Env)
  /-- with the sockets that are disconnected at once -/
  | aboutToQuit (disconnected : List Socket)

/-- What a step leaves outside: the lines passed to `processLine` with the replies, and the
payload that a dialog shows. -/
structure Handled where
  exchanges : List (QByteArray × Reply) := []
  payload : Option QByteArray := none

/-! ## Signals -/

/-- The text of `discoveryError`. -/
def discoveryErrorText (error : ℕ) (errorString : QString) : QString :=
  if errorString = [] then
    qStringLiteral "Bluetooth discovery failed: " ++ fromLatin1 (digitsOf 10 error)
  else errorString

/-- The text of the log for an authorized device. -/
def authorizedText (deviceId : QString) : QString :=
  qStringLiteral "device " ++ deviceId ++ qStringLiteral " authorized"

def clientDisconnectedSignal : Signal := .logMessage (qStringLiteral "client disconnected")

/-- What the server emits in a step. -/
def serverSignals : ApplicationEvent → List (QByteArray × Reply) → List Signal
  | .newConnection pending, _ =>
      pending.map fun c => .logMessage (qStringLiteral "client connected from " ++ c.2)
  | .readyRead _ _ _, exchanges => exchanges.flatMap fun e => e.2.signals
  | .disconnected _, _ => [clientDisconnectedSignal]
  | .aboutToQuit disconnected, _ =>
      disconnected.map (fun _ => clientDisconnectedSignal) ++
        [.statusChanged (qStringLiteral "Stopped")]
  | _, _ => []

namespace Application

variable (lib : Libraries) (a : Application)

/-- The slots the window has for the signals of the server. -/
def receive : Signal → Application
  | .logMessage message => { a with window := a.window.appendLog (.message message) }
  | .statusChanged status => { a with statusLabel := status, statusBar := status }
  | .deviceChanged deviceId connected =>
      { a with window := a.window.setDevice deviceId connected }

/-- The window when it has been constructed, with the discovery started. -/
def opened (server : Server) : Application where
  server := server
  window := .constructed
  statusLabel := qStringLiteral "Starting"
  statusBar := qStringLiteral "Initializing server"
  discovering := true
  running := true

/-- `main` up to `exec`; it returns 1 if the server does not start. -/
def main (pcId : QByteArray) (keyPair : X25519KeyPair) (listen : Except QString UInt16)
    (bind : Except QString Unit) (env : Env) : Option Application :=
  let (server, ok, _) := (Server.initial pcId keyPair).start 43295 listen bind env
  if ok then some (opened server) else none

/-- What is done to the server, before anybody hears of it. -/
def serve : ApplicationEvent → Application × Handled
  | .newConnection pending =>
      ({ a with server := a.server.acceptConnections (pending.map Prod.fst) }, {})
  | .readyRead socket chunk env =>
      let (server, exchanges) := a.server.readClient lib socket chunk env
      ({ a with server }, { exchanges })
  | .disconnected socket => ({ a with server := a.server.clientDisconnected socket }, {})
  | .showPairing addresses env =>
      let (server, payload) := a.server.pairingPayload lib.qt [] addresses env
      ({ a with server }, { payload := some payload })
  | .aboutToQuit _ => ({ a with server := a.server.stop.1, running := false }, {})
  | _ => (a, {})

/-- What is done to the window and the discovery. -/
def display : ApplicationEvent → Option Application
  | .deviceDiscovered device =>
      if a.discovering then
        some (if device.lowEnergy then
          { a with window := a.window.deviceFound device.deviceUuid device.name device.rssi }
        else a)
      else none
  | .finished => if a.discovering then some { a with discovering := false } else none
  | .errorOccurred error errorString active =>
      some { a with
        window := a.window.appendLog (.message (discoveryErrorText error errorString))
        discovering := a.discovering && active }
  | .editNear value => some { a with window := a.window.editNear value }
  | .editFar value => some { a with window := a.window.editFar value }
  | _ => some a

end Application

/-- The application, from `exec` on. -/
def applicationMachine (lib : Libraries) : Machine Application ApplicationEvent Handled where
  step a event :=
    if a.running then
      let (served, handled) := a.serve lib event
      ((serverSignals event handled.exchanges).foldl Application.receive served).display event
        |>.map fun a => (a, handled)
    else none

abbrev ApplicationEntry := Entry Application ApplicationEvent Handled

/-! ## What a step does -/

section Steps

variable {lib : Libraries} {a : Application} {x : ApplicationEntry} {event : ApplicationEvent}
  {signals : List Signal}

/-- The application when the window has heard the server. -/
def informed (lib : Libraries) (x : ApplicationEntry) : Application :=
  (serverSignals x.act x.out.exchanges).foldl Application.receive (x.pre.serve lib x.act).1

theorem application_does : (applicationMachine lib).Does x ↔
    x.pre.running = true ∧ x.out = (x.pre.serve lib x.act).2 ∧
      (informed lib x).display x.act = some x.post := by
  simp only [Machine.Does, applicationMachine, informed]
  split_ifs with hrunning
  · simp only [Option.map_eq_some_iff, Prod.mk.injEq, hrunning, true_and]
    constructor
    · rintro ⟨post, hdisplay, rfl, hout⟩
      rw [← hout]
      exact ⟨rfl, hdisplay⟩
    · rintro ⟨hout, hdisplay⟩
      rw [hout] at hdisplay
      exact ⟨x.post, hdisplay, rfl, hout.symm⟩
  · simp [hrunning]

/-- Signals reach the window, and nothing else. -/
theorem foldl_receive (a : Application) (signals : List Signal) :
    (signals.foldl Application.receive a).server = a.server ∧
      (signals.foldl Application.receive a).discovering = a.discovering ∧
      (signals.foldl Application.receive a).running = a.running := by
  induction signals generalizing a with
  | nil => exact ⟨rfl, rfl, rfl⟩
  | cons signal signals ih =>
      obtain ⟨hserver, hdiscovering, hrunning⟩ := ih (a.receive signal)
      rw [List.foldl_cons, hserver, hdiscovering, hrunning]
      cases signal <;> exact ⟨rfl, rfl, rfl⟩

theorem display_keeps {post : Application} (h : a.display event = some post) :
    post.server = a.server ∧ post.running = a.running ∧ post.statusLabel = a.statusLabel ∧
      post.statusBar = a.statusBar ∧ (post.discovering = true → a.discovering = true) := by
  cases event with
  | deviceDiscovered device =>
      simp only [Application.display] at h
      split_ifs at h <;> cases h <;> exact ⟨rfl, rfl, rfl, rfl, id⟩
  | finished =>
      simp only [Application.display] at h
      split_ifs at h with hdiscovering
      cases h
      exact ⟨rfl, rfl, rfl, rfl, fun _ => hdiscovering⟩
  | errorOccurred error errorString active =>
      cases h
      exact ⟨rfl, rfl, rfl, rfl, fun h => (Bool.and_eq_true _ _ ▸ h).1⟩
  | _ =>
      cases h
      exact ⟨rfl, rfl, rfl, rfl, id⟩

/-- The server is what `serve` leaves. -/
theorem does_server (hdoes : (applicationMachine lib).Does x) :
    x.post.server = (x.pre.serve lib x.act).1.server ∧
      x.post.running = (x.pre.serve lib x.act).1.running := by
  obtain ⟨-, -, hdisplay⟩ := application_does.mp hdoes
  obtain ⟨hserver, hrunning, -⟩ := display_keeps hdisplay
  obtain ⟨hserver', -, hrunning'⟩ :=
    foldl_receive (x.pre.serve lib x.act).1 (serverSignals x.act x.out.exchanges)
  exact ⟨hserver.trans hserver', hrunning.trans hrunning'⟩

end Steps

/-! ## The server of the application -/

/-- The step of the server that a step is. -/
def clientEntry (x : ApplicationEntry) : Option ClientEntry :=
  let entry (event : ClientEvent) : ClientEntry :=
    ⟨x.pre.server, event, x.out.exchanges, x.post.server⟩
  match x.act with
  | .newConnection pending => some (entry (.newConnection (pending.map Prod.fst)))
  | .readyRead socket chunk env => some (entry (.readyRead socket chunk env))
  | .disconnected socket => some (entry (.disconnected socket))
  | .showPairing addresses env => some (entry (.call (.pairingPayload [] addresses env)))
  | .aboutToQuit _ => some (entry (.call .stop))
  | _ => none

section Server

variable {lib : Libraries} {a s : Application} {tr : List ApplicationEntry}
  {x : ApplicationEntry}

theorem clientEntry_shows (hdoes : (applicationMachine lib).Does x) :
    Shows (clientMachine lib) Application.server x (clientEntry x) := by
  obtain ⟨hserver, -⟩ := does_server hdoes
  obtain ⟨-, hout, -⟩ := application_does.mp hdoes
  obtain ⟨pre, act, out, post⟩ := x
  simp only at hserver hout
  subst hout
  cases act with
  | newConnection | readyRead | disconnected | showPairing | aboutToQuit =>
      refine ⟨rfl, rfl, ?_⟩
      simp only [Machine.Does, clientMachine, Application.serve, hserver] <;> rfl
  | _ => exact hserver

/-- **The server of the application is the server with its sockets.** -/
theorem run_clients (hrun : Run (applicationMachine lib) a tr s) :
    Run (clientMachine lib) a.server (tr.filterMap clientEntry) s.server :=
  hrun.map (C := fun _ _ => True) Application.server clientEntry (fun _ _ _ _ => trivial)
    fun _ _ _ _ _ hdoes => clientEntry_shows hdoes

/-- What `main` makes, if the server has started. -/
theorem main_eq_some {pcId : QByteArray} {keyPair : X25519KeyPair}
    {listen : Except QString UInt16} {bind : Except QString Unit} {env : Env}
    (h : Application.main pcId keyPair listen bind env = some a) :
    ∃ bound, listen = .ok bound ∧ a.server.tcpServer = some bound ∧
      a = Application.opened ((Server.initial pcId keyPair).start 43295 listen bind env).1 := by
  unfold Application.main at h
  simp only at h
  split_ifs at h with hok
  cases h
  unfold Server.start at hok ⊢
  simp only [show (Server.initial pcId keyPair).isRunning = false from rfl] at hok ⊢
  by_cases hkey : (Server.initial pcId keyPair).x25519KeyPair.publicKey.length ≠ 32
  · simp [hkey] at hok
  · simp only [hkey] at hok ⊢
    cases listen with
    | error message => simp at hok
    | ok bound =>
        cases bind with
        | error message => simp at hok
        | ok u => exact ⟨bound, rfl, rfl, trivial⟩

/-- **Behind the application is the server**, from its construction on. -/
theorem run_requests {pcId : QByteArray} {keyPair : X25519KeyPair}
    {listen : Except QString UInt16} {bind : Except QString Unit} {env : Env}
    (hmain : Application.main pcId keyPair listen bind env = some a)
    (hrun : Run (applicationMachine lib) a tr s) :
    ∃ requests, Run (serverMachine lib) (Server.initial pcId keyPair) requests
        s.server.unbuffered ∧
      requests.filterMap exchangeOf = tr.flatMap fun x => x.out.exchanges := by
  obtain ⟨bound, -, -, rfl⟩ := main_eq_some hmain
  let y : ClientEntry := ⟨Server.initial pcId keyPair, .call (.start 43295 listen bind env), [],
    ((Server.initial pcId keyPair).start 43295 listen bind env).1⟩
  have hstart : (clientMachine lib).Does y := rfl
  obtain ⟨requests, hrequests, hexchanges⟩ := run_exchanges (Run.cons hstart (run_clients hrun))
  refine ⟨requests, hrequests, ?_⟩
  have hall : ∀ x ∈ tr, ((clientEntry x).map Entry.out).getD [] = x.out.exchanges := by
    intro x hx
    obtain ⟨-, hout, -⟩ := application_does.mp (hrun.does_of_mem hx)
    unfold clientEntry
    cases hact : x.act <;> simp [hout, hact, Application.serve]
  rw [hexchanges, List.flatMap_cons, List.nil_append]
  clear hrun hexchanges
  induction tr with
  | nil => rfl
  | cons x tr ih =>
      rw [List.flatMap_cons, ← hall x (by simp), ← ih fun y hy => hall y (by simp [hy])]
      cases hx : clientEntry x <;> simp [hx]

end Server

/-! ## What a line lets the window know -/

section Lines

variable (lib : Libraries)

/-- The signals of a line, with the state it leaves. -/
inductive LineSignals (server : Server) (line : QByteArray) (env : Env) :
    Server → List Signal → Prop
  | silent {post : Server} (hkeys : post.pairedKeys = server.pairedKeys) :
      LineSignals server line env post []
  | paired (r : PairRequest) (shared : QByteArray) :
      LineSignals server line env (server.withPairing r shared)
        [.deviceChanged r.id true, .logMessage (qStringLiteral "paired device " ++ r.id)]
  | authorized {request decrypted : QJsonObject} {id : QString} {post : Server}
      (hjson : lib.qt.fromJson line = some request) (hpair : ¬ IsPair request)
      (hopen : server.decryptRequest lib request = .ok (id, decrypted))
      (htype : typeOf decrypted = qStringLiteral "verify")
      (hverdict : (server.verdict lib id (verifyRequest lib decrypted) env).2.1 = true)
      (hkeys : post.pairedKeys = server.pairedKeys) :
      LineSignals server line env post [.logMessage (authorizedText id)]
  | refused {post : Server} (hkeys : post.pairedKeys = server.pairedKeys) (error : QString) :
      LineSignals server line env post
        [.logMessage (qStringLiteral "authorization rejected: " ++ error)]

theorem processLine_signals (server : Server) (line : QByteArray) (env : Env) :
    LineSignals lib server line env (server.processLine lib line env).1
      (server.processLine lib line env).2.signals := by
  unfold Server.processLine
  cases hjson : lib.qt.fromJson line with
  | none => exact .silent rfl
  | some request =>
      by_cases hpair : typeOf request = qStringLiteral "pair"
      · simp only [hpair, if_true, Server.processPair]
        split_ifs
        · exact .silent rfl
        · exact .paired _ _
        · exact .silent rfl
      · simp only [hpair, if_false]
        cases hopen : server.decryptRequest lib request with
        | error error => exact .silent rfl
        | ok opened =>
            obtain ⟨id, decrypted⟩ := opened
            by_cases hchallenge : typeOf decrypted = qStringLiteral "challenge"
            · simp only [hchallenge, if_true]
              exact .silent rfl
            · by_cases hverify : typeOf decrypted = qStringLiteral "verify"
              · simp only [if_neg hchallenge, if_pos hverify, Server.processVerify,
                  Server.sealedReply]
                cases hverdict :
                    (server.verdict lib id (verifyRequest lib decrypted) env).2.1 with
                | true => exact .authorized hjson hpair hopen hverify hverdict rfl
                | false =>
                    refine .refused ?_ _
                    rfl
              · simp only [hchallenge, hverify, if_false]
                exact .silent rfl

variable {lib} {y : ServerEntry} {id : QString}

/-- An exchange is a line that the server takes. -/
theorem exchangeOf_eq_some (hdoes : (serverMachine lib).Does y) {e : QByteArray × Reply}
    (he : exchangeOf y = some e) : ∃ socket env, y.act = .line socket e.1 env ∧
      (replied y = some e.2) ∧ LineSignals lib y.pre e.1 env y.post e.2.signals := by
  obtain ⟨hpost, hout⟩ := does_iff.mp hdoes
  obtain ⟨pre, act, out, post⟩ := y
  simp only at hpost hout
  subst hpost hout
  cases act with
  | line socket line env =>
      cases he
      exact ⟨socket, env, rfl, rfl, processLine_signals lib pre line env⟩
  | start | stop | pairingPayload => simp [exchangeOf] at he

/-- A device is paired when its pairing is accepted, and stays so. -/
theorem paired_step (hdoes : (serverMachine lib).Does y) :
    (y.post.pairedKeys id).isSome ↔ (y.pre.pairedKeys id).isSome ∨
      ∃ e, exchangeOf y = some e ∧ .deviceChanged id true ∈ e.2.signals := by
  cases he : exchangeOf y with
  | none =>
      have hkeys : y.post.pairedKeys = y.pre.pairedKeys := by
        have hcase := does_case hdoes
        obtain ⟨hpost, hout⟩ := does_iff.mp hdoes
        obtain ⟨pre, act, out, post⟩ := y
        simp only at hcase hout
        cases hcase with
        | line hline =>
            subst hout
            simp [exchangeOf, Server.react] at he
        | _ => rfl
      simp [hkeys]
  | some e =>
      obtain ⟨socket, env, -, -, hsignals⟩ := exchangeOf_eq_some hdoes he
      obtain ⟨line, response, payload, signals⟩ := e
      generalize y.post = post at hsignals
      simp only at hsignals
      cases hsignals with
      | silent hkeys | authorized _ _ _ _ _ hkeys | refused hkeys => simp [hkeys]
      | paired r shared =>
          by_cases hid : id = r.id
          · simp [Server.withPairing, hid]
          · simp [Server.withPairing, hid]

/-- What a line lets know is a message, or that a device has been paired. -/
def OfLine (signal : Signal) : Prop :=
  (∃ message, signal = .logMessage message) ∨ ∃ deviceId, signal = .deviceChanged deviceId true

theorem OfLine.connected {deviceId : QString} {connected : Bool}
    (h : OfLine (.deviceChanged deviceId connected)) : connected = true := by
  obtain ⟨message, h⟩ | ⟨deviceId', h⟩ := h
  · cases h
  · cases h
    rfl

theorem ofLine (hdoes : (serverMachine lib).Does y) {e : QByteArray × Reply}
    (he : exchangeOf y = some e) {signal : Signal} (hmem : signal ∈ e.2.signals) :
    OfLine signal := by
  obtain ⟨socket, env, -, -, hsignals⟩ := exchangeOf_eq_some hdoes he
  obtain ⟨line, response, payload, signals⟩ := e
  generalize y.post = post at hsignals
  simp only at hsignals hmem
  cases hsignals with
  | silent hkeys => cases hmem
  | paired r shared =>
      rcases List.mem_cons.mp hmem with rfl | hmem
      · exact .inr ⟨_, rfl⟩
      · exact .inl ⟨_, List.mem_singleton.mp hmem⟩
  | authorized | refused => exact .inl ⟨_, List.mem_singleton.mp hmem⟩

end Lines

/-! ## The devices that are listed -/

deriving instance DecidableEq for Signal

/-- What the server emits while it handles lines. -/
def lineSignals (x : ApplicationEntry) : List Signal :=
  x.out.exchanges.flatMap fun e => e.2.signals

/-- A step pairs the device. -/
def Pairs (id : QString) (x : ApplicationEntry) : Prop :=
  .deviceChanged id true ∈ lineSignals x

instance (id : QString) (x : ApplicationEntry) : Decidable (Pairs id x) := by
  unfold Pairs
  infer_instance

/-- Whether the window lists the device, when the agent tells of it. -/
def Application.reading (a : Application) (id : QString) : ApplicationEvent → Option Bool
  | .deviceDiscovered device =>
      if device.lowEnergy ∧ device.deviceUuid = id then
        some (a.window.nearThreshold.1 ≤ device.rssi.toInt)
      else none
  | _ => none

/-- What a step has to say on whether the device is listed. -/
def listing (id : QString) (x : ApplicationEntry) : Option Bool :=
  (x.pre.reading id x.act).or (if Pairs id x then some true else none)

/-! ## A sample run -/

def sampleApplication : Application :=
  .opened ((Server.initial samplePcId sampleKeyPair).start 43295 (.ok 43295) (.ok ())
    (standing sampleTime 0x1122334455667788)).1

theorem sampleApplication_main : Application.main samplePcId sampleKeyPair (.ok 43295) (.ok ())
    (standing sampleTime 0x1122334455667788) = some sampleApplication := rfl

def phoneId : QString := qStringLiteral "phone"

def watchId : QString := qStringLiteral "watch"

/-- A phone pairs and is authorized; a watch is near when the discovery ends. -/
def sampleEvents : List ApplicationEvent :=
  [.newConnection [(1, qStringLiteral "127.0.0.1")],
    .readyRead 1 (compactJson phonePair ++ [10]) fun _ => standing sampleTime 0,
    .deviceDiscovered ⟨true, watchId, [], -60⟩, .finished,
    .readyRead 1 (compactJson chosenVerify.envelope ++ [10]) fun _ => standing sampleTime 0,
    .aboutToQuit [1]]

def sampleSteps (events : List ApplicationEvent) : List ApplicationEntry :=
  (applicationMachine phoneRecording.libraries).trace sampleApplication events

def sampleEnd (events : List ApplicationEvent) : Application :=
  (applicationMachine phoneRecording.libraries).final sampleApplication events

theorem sampleSteps_run (events : List ApplicationEvent) :
    Run (applicationMachine phoneRecording.libraries) sampleApplication (sampleSteps events)
      (sampleEnd events) :=
  Run.trace _ _ _

/-- What is read off the run. -/
theorem sample_facts :
    (∀ x ∈ sampleSteps sampleEvents, x.pre.reading phoneId x.act = none) ∧
      ((sampleEnd sampleEvents).server.pairedKeys phoneId).isSome ∧
      .message (authorizedText phoneId) ∈ (sampleEnd sampleEvents).window.logList ∧
      (sampleEnd (sampleEvents.take 4)).discovering = false ∧
      watchId ∈ (sampleEnd (sampleEvents.take 4)).window.deviceList := by
  decide +kernel

section Devices

variable {lib : Libraries} {a s : Application} {tr : List ApplicationEntry}
  {x : ApplicationEntry} {id : QString} {signals : List Signal}

/-- Signals that pair devices list them, and unlist none. -/
theorem foldl_receive_listed
    (htrue : ∀ deviceId connected, .deviceChanged deviceId connected ∈ signals → connected = true)
    (a : Application) (hnodup : a.window.deviceList.Nodup) :
    (signals.foldl Application.receive a).window.deviceList.Nodup ∧
      (id ∈ (signals.foldl Application.receive a).window.deviceList ↔
        .deviceChanged id true ∈ signals ∨ id ∈ a.window.deviceList) := by
  induction signals generalizing a with
  | nil => simpa using hnodup
  | cons signal signals ih =>
      have htrue' : ∀ deviceId connected,
          .deviceChanged deviceId connected ∈ signals → connected = true :=
        fun deviceId connected hmem => htrue deviceId connected (List.mem_cons_of_mem _ hmem)
      cases signal with
      | logMessage message =>
          have hlisted := ih htrue' (a.receive (.logMessage message)) hnodup
          simpa [Application.receive, MainWindow.appendLog] using hlisted
      | statusChanged status =>
          have hlisted := ih htrue' (a.receive (.statusChanged status)) hnodup
          simpa [Application.receive] using hlisted
      | deviceChanged deviceId connected =>
          obtain rfl := htrue deviceId connected (by simp)
          obtain ⟨hafter, hlisted⟩ := ih htrue' (a.receive (.deviceChanged deviceId true))
            (MainWindow.nodup_setDevice hnodup)
          refine ⟨hafter, hlisted.trans ?_⟩
          simp only [Application.receive, MainWindow.mem_setDevice hnodup, List.mem_cons,
            Signal.deviceChanged.injEq, and_true]
          by_cases hid : id = deviceId
          · simp [hid]
          · simp [hid]

theorem foldl_receive_near (signals : List Signal) (a : Application) :
    (signals.foldl Application.receive a).window.nearThreshold = a.window.nearThreshold := by
  induction signals generalizing a with
  | nil => rfl
  | cons signal signals ih =>
      rw [List.foldl_cons, ih]
      cases signal with
      | deviceChanged deviceId connected => exact MainWindow.setDevice_near
      | _ => rfl

theorem serverSignals_deviceChanged {event : ApplicationEvent}
    {exchanges : List (QByteArray × Reply)} {connected : Bool}
    (h : .deviceChanged id connected ∈ serverSignals event exchanges) :
    .deviceChanged id connected ∈ exchanges.flatMap fun e => e.2.signals := by
  cases event with
  | readyRead socket chunk env => exact h
  | _ => simp [serverSignals, clientDisconnectedSignal] at h

/-- What the window lists when it has heard the server. -/
theorem informed_listed (id : QString) (hdoes : (applicationMachine lib).Does x)
    (hlines : ∀ signal ∈ lineSignals x, OfLine signal)
    (hnodup : x.pre.window.deviceList.Nodup) :
    (informed lib x).window.deviceList.Nodup ∧
      (id ∈ (informed lib x).window.deviceList ↔ Pairs id x ∨ id ∈ x.pre.window.deviceList) := by
  have hwindow : (x.pre.serve lib x.act).1.window = x.pre.window := by
    cases x.act <;> rfl
  have hsignals : ∀ deviceId connected, .deviceChanged deviceId connected ∈
      serverSignals x.act x.out.exchanges → connected = true :=
    fun deviceId connected hmem => (hlines _ (serverSignals_deviceChanged hmem)).connected
  obtain ⟨hafter, hlisted⟩ := foldl_receive_listed hsignals
    (x.pre.serve lib x.act).1 (by rw [hwindow]; exact hnodup)
  rw [hwindow] at hlisted
  refine ⟨hafter, hlisted.trans (or_congr_left ⟨serverSignals_deviceChanged, fun hmem => ?_⟩)⟩
  -- only the step that reads a client has exchanges
  obtain ⟨-, hout, -⟩ := application_does.mp hdoes
  rw [Pairs, lineSignals] at hmem
  cases hact : x.act with
  | readyRead socket chunk env => exact hmem
  | _ =>
      rw [hout, hact] at hmem
      exact absurd hmem List.not_mem_nil

/-- The discovery lists a device or not, and nothing else does. -/
theorem display_listed {event : ApplicationEvent} {post : Application}
    (h : a.display event = some post) (hnodup : a.window.deviceList.Nodup) :
    post.window.deviceList.Nodup ∧
      (id ∈ post.window.deviceList ↔
        match a.reading id event with
        | some listed => listed = true
        | none => id ∈ a.window.deviceList) := by
  cases event with
  | deviceDiscovered device =>
      simp only [Application.display] at h
      split_ifs at h with hdiscovering hlow
      · cases h
        refine ⟨MainWindow.nodup_setDevice hnodup, ?_⟩
        have hlogged : (a.window.appendLog
            (.bleDevice device.name device.deviceUuid device.rssi)).deviceList.Nodup := hnodup
        show id ∈ ((a.window.appendLog _).setDevice device.deviceUuid _).deviceList ↔ _
        rw [MainWindow.mem_setDevice hlogged]
        by_cases hid : device.deviceUuid = id
        · simp [Application.reading, hlow, hid]
        · simp [Application.reading, hid, Ne.symm hid, MainWindow.appendLog]
      · cases h
        simp [Application.reading, hlow, hnodup]
  | finished =>
      simp only [Application.display] at h
      split_ifs at h
      cases h
      exact ⟨hnodup, Iff.rfl⟩
  | editNear value =>
      cases h
      simp only [MainWindow.editNear, Application.reading]
      split_ifs <;> simp [hnodup]
  | editFar value =>
      cases h
      simp only [MainWindow.editFar, Application.reading]
      split_ifs <;> simp [hnodup]
  | _ =>
      cases h
      exact ⟨hnodup, Iff.rfl⟩

/-- **A step lists the device or not, or leaves it as it is.** -/
theorem listed_step (id : QString) (hdoes : (applicationMachine lib).Does x)
    (hlines : ∀ signal ∈ lineSignals x, OfLine signal)
    (hnodup : x.pre.window.deviceList.Nodup) :
    x.post.window.deviceList.Nodup ∧
      (id ∈ x.post.window.deviceList ↔
        match listing id x with
        | some listed => listed = true
        | none => id ∈ x.pre.window.deviceList) := by
  obtain ⟨-, hout, hdisplay⟩ := application_does.mp hdoes
  obtain ⟨hinformed, hheard⟩ := informed_listed id hdoes hlines hnodup
  obtain ⟨hafter, hlisted⟩ := display_listed hdisplay hinformed
  refine ⟨hafter, hlisted.trans ?_⟩
  have hreading : (informed lib x).reading id x.act = x.pre.reading id x.act := by
    have hnear : (informed lib x).window.nearThreshold = x.pre.window.nearThreshold := by
      rw [informed, foldl_receive_near]
      cases x.act <;> rfl
    unfold Application.reading
    rw [hnear]
  rw [hreading, listing]
  cases x.pre.reading id x.act with
  | some listed => rfl
  | none =>
      rw [Option.none_or]
      by_cases hpairs : Pairs id x
      · simp [hpairs, hheard]
      · simp [hpairs, hheard]

variable {pcId : QByteArray} {keyPair : X25519KeyPair} {listen : Except QString UInt16}
  {bind : Except QString Unit} {env : Env}

/-- The signals of a run are those of the requests. -/
theorem lineSignals_run {requests : List ServerEntry}
    (hexchanges : requests.filterMap exchangeOf = tr.flatMap fun x => x.out.exchanges)
    {signal : Signal} :
    (∃ x ∈ tr, signal ∈ lineSignals x) ↔
      ∃ y ∈ requests, ∃ e, exchangeOf y = some e ∧ signal ∈ e.2.signals := by
  have hmem : ∀ e, (∃ x ∈ tr, e ∈ x.out.exchanges) ↔ ∃ y ∈ requests, exchangeOf y = some e := by
    intro e
    rw [← List.mem_flatMap, ← hexchanges, List.mem_filterMap]
  constructor
  · rintro ⟨x, hx, hsignal⟩
    obtain ⟨e, he, hsignal⟩ := List.mem_flatMap.mp hsignal
    obtain ⟨y, hy, hey⟩ := (hmem e).mp ⟨x, hx, he⟩
    exact ⟨y, hy, e, hey, hsignal⟩
  · rintro ⟨y, hy, e, hey, hsignal⟩
    obtain ⟨x, hx, he⟩ := (hmem e).mpr ⟨y, hy, hey⟩
    exact ⟨x, hx, List.mem_flatMap.mpr ⟨e, he, hsignal⟩⟩

/-- The devices that are paired are those that a step has paired. -/
theorem paired_iff (hmain : Application.main pcId keyPair listen bind env = some a)
    (hrun : Run (applicationMachine lib) a tr s) :
    (s.server.pairedKeys id).isSome ↔ ∃ x ∈ tr, Pairs id x := by
  obtain ⟨requests, hrequests, hexchanges⟩ := run_requests hmain hrun
  rw [show (∃ x ∈ tr, Pairs id x) ↔ _ from lineSignals_run hexchanges]
  refine hrequests.history (P := fun requests (server : Server) =>
    (server.pairedKeys id).isSome ↔ ∃ y ∈ requests, ∃ e, exchangeOf y = some e ∧
      .deviceChanged id true ∈ e.2.signals) (by simp [Server.initial]) ?_
  intro requests y _ hdoes ih
  rw [paired_step hdoes, ih]
  simp only [List.mem_append, List.mem_singleton, or_and_right, exists_or, exists_eq_left]

theorem ofLine_run (hmain : Application.main pcId keyPair listen bind env = some a)
    (hrun : Run (applicationMachine lib) a tr s) (hx : x ∈ tr) {signal : Signal}
    (hmem : signal ∈ lineSignals x) : OfLine signal := by
  obtain ⟨requests, hrequests, hexchanges⟩ := run_requests hmain hrun
  obtain ⟨y, hy, e, he, hsignal⟩ := (lineSignals_run hexchanges).mp ⟨x, hx, hmem⟩
  exact ofLine (hrequests.does_of_mem hy) he hsignal

theorem listed_run (hmain : Application.main pcId keyPair listen bind env = some a)
    (hrun : Run (applicationMachine lib) a tr s) (id : QString) :
    s.window.deviceList.Nodup ∧
      (id ∈ s.window.deviceList ↔ lastSome (listing id) tr = some true) := by
  have hlines : Along (fun _ x => ∀ signal ∈ lineSignals x, OfLine signal) tr :=
    .of_forall_mem fun x hx _ => ofLine_run hmain hrun hx
  obtain ⟨bound, -, -, rfl⟩ := main_eq_some hmain
  refine Run.induction (P := fun tr (s : Application) => s.window.deviceList.Nodup ∧
    (id ∈ s.window.deviceList ↔ lastSome (listing id) tr = some true)) hrun hlines ?_ ?_
  · simp [Application.opened, MainWindow.constructed]
  · rintro tr x - - hx hdoes ⟨hnodup, ih⟩
    obtain ⟨hafter, hstep⟩ := listed_step id hdoes hx hnodup
    refine ⟨hafter, hstep.trans ?_⟩
    rw [lastSome_snoc]
    cases listing id x with
    | some listed => simp
    | none => exact ih

/-- **The devices in the window**: one is listed exactly if the last that was said of it, by
the agent or by the server, lists it.  Those that the agent tells nothing of are listed
exactly if they are paired. -/
theorem devices_listed (hmain : Application.main pcId keyPair listen bind env = some a)
    (hrun : Run (applicationMachine lib) a tr s) (id : QString) :
    (id ∈ s.window.deviceList ↔ lastSome (listing id) tr = some true) ∧
      ((∀ x ∈ tr, x.pre.reading id x.act = none) →
        (id ∈ s.window.deviceList ↔ (s.server.pairedKeys id).isSome)) := by
  have hlisted := (listed_run hmain hrun id).2
  refine ⟨hlisted, fun hquiet => hlisted.trans ?_⟩
  have hlisting : ∀ x ∈ tr, listing id x = if Pairs id x then some true else none := by
    intro x hx
    rw [listing, hquiet x hx, Option.none_or]
  have honly : ∀ x ∈ tr, ∀ listed, listing id x = some listed → listed = true := by
    intro x hx listed h
    rw [hlisting x hx] at h
    split_ifs at h
    exact (Option.some.inj h).symm
  rw [lastSome_eq_some_of_only honly, paired_iff hmain hrun]
  refine exists_congr fun x => and_congr_right fun hx => ?_
  rw [hlisting x hx]
  by_cases hpairs : Pairs id x
  · simp [hpairs]
  · simp [hpairs]

/-- The phone of the sample is listed. -/
theorem devices_listed_sample : phoneId ∈ (sampleEnd sampleEvents).window.deviceList := by
  obtain ⟨hquiet, hpaired, -⟩ := sample_facts
  have hlisted := devices_listed sampleApplication_main (sampleSteps_run sampleEvents) phoneId
  exact (hlisted.2 hquiet).mpr hpaired

end Devices

/-! ## The log -/

/-- The line of the log that a signal of the server makes. -/
def signalLine : Signal → Option LogLine
  | .logMessage message => some (.message message)
  | _ => none

/-- The lines of `proximityChanged`. -/
def MainWindow.thresholdLines (w : MainWindow) : List LogLine :=
  if w.nearThreshold.1 < w.farThreshold.1 then
    [.proximityThresholds w.farThreshold w.farThreshold,
      .proximityThresholds w.farThreshold w.farThreshold]
  else [.proximityThresholds w.nearThreshold w.farThreshold]

/-- The lines that the window logs of its own. -/
def MainWindow.displayLines (w : MainWindow) : ApplicationEvent → List LogLine
  | .deviceDiscovered device =>
      if device.lowEnergy then [.bleDevice device.name device.deviceUuid device.rssi] else []
  | .errorOccurred error errorString _ => [.message (discoveryErrorText error errorString)]
  | .editNear value =>
      if bound value = w.nearThreshold then []
      else ({ w with nearThreshold := bound value } : MainWindow).thresholdLines
  | .editFar value =>
      if bound value = w.farThreshold then []
      else ({ w with farThreshold := bound value } : MainWindow).thresholdLines
  | _ => []

/-- The lines logged in a step, the oldest first. -/
def logged (x : ApplicationEntry) : List LogLine :=
  (serverSignals x.act x.out.exchanges).filterMap signalLine ++ x.pre.window.displayLines x.act

section Log

variable {lib : Libraries} {a s : Application} {tr : List ApplicationEntry}
  {x : ApplicationEntry} {id : QString}

/-- What is beyond the cut does not come back. -/
theorem take_append_cut {α : Type} (n : ℕ) (new old : List α) :
    (new ++ old.take n).take n = (new ++ old).take n := by
  rw [List.take_append, List.take_append, List.take_take]
  congr 2
  omega

theorem appendLog_logList (w : MainWindow) (line : LogLine) :
    (w.appendLog line).logList = ([line] ++ w.logList).take 500 := rfl

theorem proximityChanged_logList (w : MainWindow) :
    w.proximityChanged.logList = (w.thresholdLines.reverse ++ w.logList).take 500 := by
  rw [MainWindow.proximityChanged_eq, MainWindow.thresholdLines]
  split_ifs
  · simp only [appendLog_logList, take_append_cut]
    rfl
  · rfl

/-- Lines are added in front, and the log is cut to 500. -/
theorem foldl_receive_logList (signals : List Signal) (a : Application)
    (hlog : a.window.logList.length ≤ 500) :
    (signals.foldl Application.receive a).window.logList =
      ((signals.filterMap signalLine).reverse ++ a.window.logList).take 500 := by
  induction signals generalizing a with
  | nil => exact (List.take_of_length_le hlog).symm
  | cons signal signals ih =>
      cases signal with
      | logMessage message =>
          rw [List.foldl_cons, ih _ (MainWindow.appendLog_log _ _)]
          show (_ ++ ([LogLine.message message] ++ a.window.logList).take 500).take 500 = _
          rw [take_append_cut]
          simp [signalLine]
      | statusChanged status =>
          exact ih (a.receive (.statusChanged status)) hlog
      | deviceChanged deviceId connected =>
          have hsame : (a.receive (.deviceChanged deviceId connected)).window.logList =
              a.window.logList := MainWindow.setDevice_logList
          rw [List.foldl_cons, ih _ (hsame ▸ hlog), hsame]
          rfl

theorem display_logList {event : ApplicationEvent} {post : Application}
    (h : a.display event = some post) (hlog : a.window.logList.length ≤ 500) :
    post.window.logList =
      ((a.window.displayLines event).reverse ++ a.window.logList).take 500 := by
  have hsame : a.window.logList = ([].reverse ++ a.window.logList).take 500 :=
    (List.take_of_length_le hlog).symm
  cases event with
  | deviceDiscovered device =>
      simp only [Application.display] at h
      split_ifs at h with hdiscovering hlow
      · cases h
        show ((a.window.appendLog _).setDevice _ _).logList = _
        rw [MainWindow.setDevice_logList, MainWindow.displayLines, if_pos hlow]
        rfl
      · cases h
        rw [MainWindow.displayLines, if_neg hlow]
        exact hsame
  | finished =>
      simp only [Application.display] at h
      split_ifs at h
      cases h
      exact hsame
  | errorOccurred error errorString active =>
      cases h
      rfl
  | editNear value =>
      cases h
      simp only [MainWindow.editNear, MainWindow.displayLines]
      split_ifs
      · exact hsame
      · exact proximityChanged_logList _
  | editFar value =>
      cases h
      simp only [MainWindow.editFar, MainWindow.displayLines]
      split_ifs
      · exact hsame
      · exact proximityChanged_logList _
  | _ =>
      cases h
      exact hsame

/-- **The log is what was logged, the newest first, cut to 500 lines.** -/
theorem logList_run (hrun : Run (applicationMachine lib) a tr s)
    (hempty : a.window.logList = []) :
    s.window.logList = (tr.flatMap logged).reverse.take 500 := by
  refine hrun.history (P := fun tr (s : Application) =>
    s.window.logList = (tr.flatMap logged).reverse.take 500) (by simp [hempty]) ?_
  intro tr x _ hdoes ih
  obtain ⟨-, -, hdisplay⟩ := application_does.mp hdoes
  have hwindow : (x.pre.serve lib x.act).1.window = x.pre.window := by
    cases x.act <;> rfl
  have hlog : x.pre.window.logList.length ≤ 500 := by
    rw [ih, List.length_take]
    exact Nat.min_le_left _ _
  have hinformed := foldl_receive_logList (serverSignals x.act x.out.exchanges)
    (x.pre.serve lib x.act).1 (hwindow ▸ hlog)
  have hcut : (informed lib x).window.logList.length ≤ 500 := by
    rw [informed, hinformed, List.length_take]
    exact Nat.min_le_left _ _
  have hlines : (informed lib x).window.displayLines x.act =
      x.pre.window.displayLines x.act := by
    unfold informed
    cases x.act <;> rfl
  rw [display_logList hdisplay hcut, informed, hinformed, hwindow, ih, take_append_cut,
    ← List.append_assoc, take_append_cut, ← informed, hlines]
  simp [logged]

/-! ## What the log says of authorizations -/

variable {pcId : QByteArray} {keyPair : X25519KeyPair} {listen : Except QString UInt16}
  {bind : Except QString Unit} {env : Env}

theorem authorizedText_injective : Function.Injective authorizedText := by
  intro id id' h
  exact List.append_cancel_left (List.append_cancel_right h)

/-- A text that begins otherwise is not that of an authorization. -/
theorem ne_authorizedText {text : QString} (h : text.head?.any (· ≠ 100) = true) :
    text ≠ authorizedText id := by
  rintro rfl
  cases h

theorem not_mem_thresholdLines (w : MainWindow) (message : QString) :
    .message message ∉ w.thresholdLines := by
  unfold MainWindow.thresholdLines
  split_ifs <;> simp

/-- The text is logged by the server, while it handles lines. -/
theorem authorized_logged (hos : ∀ error text active,
      x.act = .errorOccurred error text active → text ≠ authorizedText id)
    (hlogged : .message (authorizedText id) ∈ logged x) :
    .logMessage (authorizedText id) ∈ lineSignals x := by
  rcases List.mem_append.mp hlogged with hlogged | hlogged
  · obtain ⟨signal, hsignal, hline⟩ := List.mem_filterMap.mp hlogged
    have hmessage : signal = .logMessage (authorizedText id) := by
      cases signal <;> simp_all [signalLine]
    subst hmessage
    cases hact : x.act with
    | readyRead socket chunk env =>
        rw [hact] at hsignal
        exact hsignal
    | newConnection pending =>
        rw [hact] at hsignal
        obtain ⟨c, -, hc⟩ := List.mem_map.mp hsignal
        exact absurd (Signal.logMessage.inj hc) (ne_authorizedText rfl)
    | disconnected socket =>
        rw [hact] at hsignal
        have htext := Signal.logMessage.inj (List.mem_singleton.mp hsignal)
        exact absurd htext.symm (ne_authorizedText rfl)
    | aboutToQuit sockets =>
        rw [hact] at hsignal
        rcases List.mem_append.mp hsignal with hsignal | hsignal
        · obtain ⟨_, -, hc⟩ := List.mem_map.mp hsignal
          exact absurd (Signal.logMessage.inj hc) (ne_authorizedText rfl)
        · simp at hsignal
    | _ =>
        rw [hact] at hsignal
        cases hsignal
  · cases hact : x.act with
    | deviceDiscovered device =>
        rw [hact, MainWindow.displayLines] at hlogged
        split_ifs at hlogged <;> simp at hlogged
    | errorOccurred error errorString active =>
        rw [hact, MainWindow.displayLines, List.mem_singleton, LogLine.message.injEq] at hlogged
        unfold discoveryErrorText at hlogged
        split_ifs at hlogged
        · exact absurd hlogged.symm (ne_authorizedText rfl)
        · exact absurd hlogged.symm (hos _ _ _ hact)
    | editNear value =>
        rw [hact, MainWindow.displayLines] at hlogged
        split_ifs at hlogged
        · cases hlogged
        · exact absurd hlogged (not_mem_thresholdLines _ _)
    | editFar value =>
        rw [hact, MainWindow.displayLines] at hlogged
        split_ifs at hlogged
        · cases hlogged
        · exact absurd hlogged (not_mem_thresholdLines _ _)
    | _ =>
        rw [hact] at hlogged
        cases hlogged

/-- The request that the text was logged for. -/
theorem authorizedVerify_of_signal {y : ServerEntry} (hdoes : (serverMachine lib).Does y)
    {e : QByteArray × Reply} (he : exchangeOf y = some e)
    (hmem : .logMessage (authorizedText id) ∈ e.2.signals) :
    ∃ v, authorizedVerify lib y = some (id, v) := by
  obtain ⟨socket, env, hact, hreplied, hsignals⟩ := exchangeOf_eq_some hdoes he
  obtain ⟨line, reply⟩ := e
  simp only at hact hreplied hsignals hmem
  generalize hpost : y.post = post at hsignals
  generalize hall : reply.signals = signals at hsignals hmem
  cases hsignals with
  | silent hkeys => cases hmem
  | paired r shared =>
      simp only [List.mem_cons, Signal.logMessage.injEq, List.not_mem_nil, or_false,
        reduceCtorEq, false_or] at hmem
      exact absurd hmem.symm (ne_authorizedText rfl)
  | refused hkeys error =>
      rw [List.mem_singleton, Signal.logMessage.injEq] at hmem
      exact absurd hmem.symm (ne_authorizedText rfl)
  | @authorized request decrypted id' _ hjson hpair hopen htype hverdict hkeys =>
      rw [List.mem_singleton, Signal.logMessage.injEq] at hmem
      obtain rfl := authorizedText_injective hmem
      refine ⟨verifyRequest lib decrypted, (answeredVerify_iff hdoes).mpr ⟨env, ?_, hverdict⟩⟩
      have hopened : opened lib y = some (id, decrypted) :=
        opened_eq_some.mpr ⟨socket, line, env, request, hact, hjson, hpair, hopen⟩
      simp only [askedVerify, hact, hopened, Option.bind_some, htype, if_true]

/-- What an authorization of the server rests on. -/
theorem authorized_rests {pre post : List ServerEntry} {y : ServerEntry} {t : Server}
    (hrun : Run (serverMachine lib) (Server.initial pcId keyPair) (pre ++ y :: post) t)
    {v : VerifyRequest} (hauthorized : authorizedVerify lib y = some (id, v)) :
    ∃ r decrypted, lastSome (pairingOf lib id) pre = some r ∧
      OpensUnder lib y id (sessionKeyOf lib keyPair r) decrypted ∧
      v = verifyRequest lib decrypted ∧ SignedUnder lib r.signingKey v := by
  obtain ⟨hpre, hdoes⟩ := hrun.split
  obtain ⟨env, hasked, hverdict⟩ := (answeredVerify_iff hdoes).mp hauthorized
  obtain ⟨decrypted, -, hopened, -, rfl, -⟩ := askedVerify_eq_some hdoes hasked
  obtain ⟨key, hkey, hopens⟩ := opensUnder_of_opened hopened
  obtain ⟨r, hlast, rfl, -, hpaired, -⟩ := keysOf_session hpre hkey
  obtain ⟨key', hkey', -, hsigned⟩ := verdict_eq_true.mp hverdict
  obtain rfl := Option.some.inj (hpaired.symm.trans hkey')
  obtain ⟨hlen, hsig, hverified⟩ := verifyEd25519_eq_true.mp hsigned
  exact ⟨r, decrypted, hlast, hopens, rfl, ⟨_, hlen⟩, ⟨_, hsig⟩, rfl, rfl, hverified⟩

/-- **The log does not make authorizations up.**  If it says that a device was authorized,
then a request of that device, on whatever socket it came, was opened and verified under the
keys of the latest pairing of the device before it. -/
theorem log_truthful (hmain : Application.main pcId keyPair listen bind env = some a)
    (hrun : Run (applicationMachine lib) a tr s)
    (hos : ∀ x ∈ tr, ∀ error text active, x.act = .errorOccurred error text active →
      text ≠ authorizedText id)
    (hlog : .message (authorizedText id) ∈ s.window.logList) :
    ∃ pre y post r decrypted,
      Run (serverMachine lib) (Server.initial pcId keyPair) (pre ++ y :: post)
        s.server.unbuffered ∧
      (pre ++ y :: post).filterMap exchangeOf = tr.flatMap (fun x => x.out.exchanges) ∧
      authorizedVerify lib y = some (id, verifyRequest lib decrypted) ∧
      lastSome (pairingOf lib id) pre = some r ∧
      OpensUnder lib y id (sessionKeyOf lib keyPair r) decrypted ∧
      SignedUnder lib r.signingKey (verifyRequest lib decrypted) := by
  obtain ⟨requests, hrequests, hexchanges⟩ := run_requests hmain hrun
  obtain ⟨bound, -, -, rfl⟩ := main_eq_some hmain
  rw [logList_run hrun rfl] at hlog
  obtain ⟨x, hx, hlogged⟩ := List.mem_flatMap.mp (List.mem_reverse.mp (List.mem_of_mem_take hlog))
  have hsignal := authorized_logged (hos x hx) hlogged
  obtain ⟨y, hy, e, he, hmem⟩ := (lineSignals_run hexchanges).mp ⟨x, hx, hsignal⟩
  obtain ⟨v, hv⟩ := authorizedVerify_of_signal (hrequests.does_of_mem hy) he hmem
  obtain ⟨pre, post, rfl⟩ := List.append_of_mem hy
  obtain ⟨r, decrypted, hlast, hopens, rfl, hsigned⟩ := authorized_rests hrequests hv
  exact ⟨pre, y, post, r, decrypted, hrequests, hexchanges, hv, hlast, hopens, hsigned⟩

theorem log_truthful_sample : ∃ (y : ServerEntry) (r : PairRequest) (v : VerifyRequest),
    authorizedVerify phoneRecording.libraries y = some (phoneId, v) ∧
      SignedUnder phoneRecording.libraries r.signingKey v := by
  obtain ⟨-, -, hlog, -⟩ := sample_facts
  have hos : ∀ x ∈ sampleSteps sampleEvents, ∀ error text active,
      x.act = .errorOccurred error text active → text ≠ authorizedText phoneId := by
    intro x hx error text active hact
    have hmem := Machine.act_mem hx
    simp [hact, sampleEvents] at hmem
  obtain ⟨pre, y, post, r, decrypted, -, -, hauthorized, -, -, hsigned⟩ :=
    log_truthful sampleApplication_main (sampleSteps_run sampleEvents) hos hlog
  exact ⟨y, r, _, hauthorized, hsigned⟩

end Log

/-! ## The life of the application -/

section Life

variable {lib : Libraries} {a s : Application} {pre post tr : List ApplicationEntry}
  {x : ApplicationEntry}

/-- The labels are those of a window that has not heard of the server, until the server is
stopped. -/
structure Labelled (s : Application) : Prop where
  running : s.running = true → s.server.isRunning = true ∧
    s.statusLabel = qStringLiteral "Starting" ∧
    s.statusBar = qStringLiteral "Initializing server"
  stopped : s.running = false → s.server.isRunning = false ∧
    (∀ socket, s.server.buffers socket = none) ∧
    s.statusLabel = qStringLiteral "Stopped" ∧ s.statusBar = qStringLiteral "Stopped"

theorem readLines_tcpServer (server : Server) (socket : Socket) (buffer : QByteArray)
    (env : ℕ → Env) :
    (server.readLines lib socket buffer env).1.tcpServer = server.tcpServer := by
  fun_induction Server.readLines lib server socket buffer env with
  | case1 server buffer env hmem line rest hempty ih => exact ih
  | case2 server buffer env hmem line rest hline next reply hnext last answered hlast ih =>
      have hcase := processLine_case lib (server.withBuffer socket (some rest)) line (env 0)
      rw [hnext] at hcase
      rw [hlast] at ih
      refine ih.trans ?_
      cases hcase <;> rfl
  | case3 server buffer env hnone => rfl

theorem acceptConnections_tcpServer (server : Server) (pending : List Socket) :
    (server.acceptConnections pending).tcpServer = server.tcpServer := by
  induction pending generalizing server with
  | nil => rfl
  | cons socket pending ih => rw [Server.acceptConnections, ih, Server.withBuffer]

/-- Signals that do not speak of the status leave the labels as they are. -/
theorem foldl_receive_labels {signals : List Signal}
    (hquiet : ∀ status, .statusChanged status ∉ signals) (a : Application) :
    (signals.foldl Application.receive a).statusLabel = a.statusLabel ∧
      (signals.foldl Application.receive a).statusBar = a.statusBar := by
  induction signals generalizing a with
  | nil => exact ⟨rfl, rfl⟩
  | cons signal signals ih =>
      obtain ⟨hlabel, hbar⟩ := ih (fun status hmem => hquiet status (List.mem_cons_of_mem _ hmem))
        (a.receive signal)
      rw [List.foldl_cons, hlabel, hbar]
      cases signal with
      | statusChanged status => exact absurd List.mem_cons_self (hquiet status)
      | _ => exact ⟨rfl, rfl⟩

variable (lib) in
/-- The server listens until the application quits. -/
theorem serve_tcpServer (a : Application) {event : ApplicationEvent}
    (hquit : ∀ sockets, event ≠ .aboutToQuit sockets) :
    (a.serve lib event).1.server.tcpServer = a.server.tcpServer ∧
      (a.serve lib event).1.running = a.running := by
  cases event with
  | newConnection pending => exact ⟨acceptConnections_tcpServer a.server _, rfl⟩
  | readyRead socket chunk env => exact ⟨readLines_tcpServer a.server socket _ env, rfl⟩
  | showPairing addresses env =>
      refine ⟨?_, rfl⟩
      simp only [Application.serve, Server.pairingPayload, Server.refreshCode]
      split_ifs <;> rfl
  | aboutToQuit sockets => exact absurd rfl (hquit sockets)
  | _ => exact ⟨rfl, rfl⟩

theorem serverSignals_quiet (hlines : ∀ signal ∈ lineSignals x, OfLine signal)
    (hquit : ∀ sockets, x.act ≠ .aboutToQuit sockets) (status : QString) :
    .statusChanged status ∉ serverSignals x.act x.out.exchanges := by
  intro hmem
  cases hact : x.act with
  | readyRead socket chunk env =>
      rw [hact] at hmem
      obtain ⟨message, h⟩ | ⟨deviceId, h⟩ := hlines _ hmem
      · cases h
      · cases h
  | aboutToQuit sockets => exact hquit sockets hact
  | _ => simp [hact, serverSignals, clientDisconnectedSignal] at hmem

theorem Labelled.step (hdoes : (applicationMachine lib).Does x)
    (hlines : ∀ signal ∈ lineSignals x, OfLine signal) (h : Labelled x.pre) :
    Labelled x.post := by
  obtain ⟨hrunning, -, hdisplay⟩ := application_does.mp hdoes
  obtain ⟨hserver, hruns⟩ := does_server hdoes
  obtain ⟨-, -, hlabel, hbar, -⟩ := display_keeps hdisplay
  obtain ⟨hlistening, hstarting, hinitializing⟩ := h.running hrunning
  by_cases hquit : ∀ sockets, x.act ≠ .aboutToQuit sockets
  · obtain ⟨htcp, hstill⟩ := serve_tcpServer lib x.pre hquit
    obtain ⟨hlabel', hbar'⟩ := foldl_receive_labels (serverSignals_quiet hlines hquit)
      (x.pre.serve lib x.act).1
    have hsame : (x.pre.serve lib x.act).1.statusLabel = x.pre.statusLabel ∧
        (x.pre.serve lib x.act).1.statusBar = x.pre.statusBar := by
      cases x.act <;> exact ⟨rfl, rfl⟩
    refine ⟨fun _ => ⟨?_, ?_, ?_⟩, fun hstopped => ?_⟩
    · rw [hserver, Server.isRunning, htcp]
      exact hlistening
    · rw [hlabel, informed, hlabel', hsame.1, hstarting]
    · rw [hbar, informed, hbar', hsame.2, hinitializing]
    · rw [hruns, hstill, hrunning] at hstopped
      cases hstopped
  · simp only [not_forall, not_not] at hquit
    obtain ⟨sockets, hact⟩ := hquit
    have hstatus : (informed lib x).statusLabel = qStringLiteral "Stopped" ∧
        (informed lib x).statusBar = qStringLiteral "Stopped" := by
      rw [informed, hact, serverSignals, List.foldl_append]
      exact ⟨rfl, rfl⟩
    rw [hact] at hserver hruns
    refine ⟨fun hstill => ?_, fun _ => ⟨?_, fun socket => ?_, ?_, ?_⟩⟩
    · rw [hruns] at hstill
      cases hstill
    · rw [hserver]
      rfl
    · rw [hserver]
      rfl
    · rw [hlabel, hstatus.1]
    · rw [hbar, hstatus.2]

variable {pcId : QByteArray} {keyPair : X25519KeyPair} {listen : Except QString UInt16}
  {bind : Except QString Unit} {env : Env}

/-- The agent tells of nothing when it is not active, and does not become active. -/
theorem discovery_step (hdoes : (applicationMachine lib).Does x)
    (hended : x.pre.discovering = false) :
    x.post.discovering = false ∧ ∀ id, x.pre.reading id x.act = none := by
  obtain ⟨-, -, hdisplay⟩ := application_does.mp hdoes
  have hinformed : (informed lib x).discovering = false := by
    rw [informed, (foldl_receive _ _).2.1, ← hended]
    cases x.act <;> rfl
  obtain ⟨-, -, -, -, hactive⟩ := display_keeps hdisplay
  refine ⟨by_contra fun h => ?_, fun id => ?_⟩
  · rw [hactive (Bool.eq_true_of_not_eq_false h)] at hinformed
    cases hinformed
  · cases hact : x.act with
    | deviceDiscovered device =>
        rw [hact, Application.display, hinformed] at hdisplay
        cases hdisplay
    | _ => rfl

/-- **After the discovery**: it is not started again, so a device that is listed stays so,
wherever it goes, and others are listed when they are paired. -/
theorem discovery_ends (hmain : Application.main pcId keyPair listen bind env = some a)
    (hrun : Run (applicationMachine lib) a (pre ++ x :: post) s)
    (hended : x.post.discovering = false) :
    s.discovering = false ∧ ∀ id,
      (id ∈ s.window.deviceList ↔ id ∈ x.post.window.deviceList ∨ ∃ y ∈ post, Pairs id y) := by
  obtain ⟨hpre, hdoes⟩ := hrun.split
  have hlines : Along (fun _ y => ∀ signal ∈ lineSignals y, OfLine signal) post :=
    .of_forall_mem fun y hy _ => ofLine_run hmain hrun (by simp [hy])
  suffices h : s.discovering = false ∧ s.window.deviceList.Nodup ∧ ∀ id,
      (id ∈ s.window.deviceList ↔ id ∈ x.post.window.deviceList ∨ ∃ y ∈ post, Pairs id y) from
    ⟨h.1, h.2.2⟩
  have hnodup := (listed_run hmain (hpre.snoc hdoes) []).1
  refine Run.induction (P := fun post (s : Application) =>
    s.discovering = false ∧ s.window.deviceList.Nodup ∧ ∀ id,
      (id ∈ s.window.deviceList ↔ id ∈ x.post.window.deviceList ∨ ∃ y ∈ post, Pairs id y))
    hrun.after hlines ⟨hended, hnodup, fun id => by simp⟩ ?_
  rintro post y - - hy hdoes ⟨hstopped, hnodup, ih⟩
  obtain ⟨hstopped', hquiet⟩ := discovery_step hdoes hstopped
  refine ⟨hstopped', (listed_step [] hdoes hy hnodup).1, fun id => ?_⟩
  rw [(listed_step id hdoes hy hnodup).2, listing, hquiet id, Option.none_or]
  simp only [List.mem_append, List.mem_singleton, or_and_right, exists_or, exists_eq_left]
  by_cases hpairs : Pairs id y
  · simp [hpairs]
  · simp [hpairs, ih id]

/-- The watch of the sample stays listed. -/
theorem discovery_ends_sample :
    watchId ∈ ((applicationMachine phoneRecording.libraries).final
      (sampleEnd (sampleEvents.take 4)) (sampleEvents.drop 4)).window.deviceList := by
  obtain ⟨-, -, -, hended, hlisted⟩ := sample_facts
  have hrest := Run.trace (applicationMachine phoneRecording.libraries)
    (sampleEnd (sampleEvents.take 4)) (sampleEvents.drop 4)
  have hrun := sampleSteps_run (sampleEvents.take 4)
  cases hsteps : sampleSteps (sampleEvents.take 4) using List.reverseRecOn with
  | nil =>
      rw [hsteps, Run.nil_iff] at hrun
      rw [hrun] at hended
      cases hended
  | append_singleton pre x _ =>
      rw [hsteps] at hrun
      obtain ⟨-, -, hpost⟩ := Run.snoc_iff.mp hrun
      have hall := hrun.append hrest
      rw [List.append_assoc, List.singleton_append] at hall
      rw [hpost] at hended hlisted
      exact ((discovery_ends sampleApplication_main hall hended).2 watchId).mpr (.inl hlisted)

end Life

end OpenBioUnlock.Desktop

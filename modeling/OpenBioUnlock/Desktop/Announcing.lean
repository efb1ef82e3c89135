import OpenBioUnlock.Desktop.Endpoint

/-!
# Announcing the server

The rest of `Server::start` and `Server::stop` in `core/server.cpp`: the UDP socket and the
timer behind `discoveryTimer_`, with `readDatagrams` and `broadcastDiscovery`.  A timer is an
object of its own.  `stop` hands it to the event loop, which deletes it some time later, when
another one may have been made.

`announcerMachine` is the server with its callers, the two sockets and the event loop in any
order.  `announcing` says that the three resources come and go together, that no timer is
left behind, and that the server broadcasts while it can be reached, to the port that it was
started on.
-/

namespace OpenBioUnlock.Desktop

open Codec Runs

/-! ## State -/

/-- A `QTimer *`, used as a name. -/
abbrev TimerId := ℕ

structure Announcer where
  server : Server
  /-- `udpSocket_` is bound -/
  udpSocket : Bool
  discoveryTimer : Option TimerId
  /-- the timers that there are -/
  timers : List TimerId
  /-- those that are started and have not been stopped -/
  active : List TimerId
  /-- those `deleteLater` was called on -/
  deferred : List TimerId
  /-- the name of the next one -/
  fresh : TimerId

def Announcer.initial (pcId : QByteArray) (keyPair : X25519KeyPair) : Announcer where
  server := .initial pcId keyPair
  udpSocket := false
  discoveryTimer := none
  timers := []
  active := []
  deferred := []
  fresh := 0

/-! ## Operations -/

namespace Announcer

variable (announcer : Announcer)

def withServer (server : Server) : Announcer := { announcer with server := server }

/-- `Server::broadcastDiscovery`: the port of the datagram. -/
def broadcastDiscovery : List UInt16 := [announcer.server.port]

/-- A timer is made, and started. -/
def startTimer : Announcer :=
  { announcer with
    udpSocket := true
    discoveryTimer := some announcer.fresh
    timers := announcer.fresh :: announcer.timers
    active := announcer.fresh :: announcer.active
    fresh := announcer.fresh + 1 }

/-- `Server::start`. -/
def start (port : UInt16) (listen : Except QString UInt16) (bind : Except QString Unit)
    (env : Env) : Announcer × List UInt16 :=
  let (server, ok, _) := announcer.server.start port listen bind env
  if announcer.server.isRunning || !ok then (announcer.withServer server, [])
  else
    let started := (announcer.withServer server).startTimer
    (started, started.broadcastDiscovery)

/-- `Server::stop`. -/
def stop : Announcer :=
  let stopped := announcer.withServer announcer.server.stop.1
  match announcer.discoveryTimer with
  | none => { stopped with udpSocket := false }
  | some timer =>
      { stopped with
        udpSocket := false
        discoveryTimer := none
        active := announcer.active.filter (· ≠ timer)
        deferred := timer :: announcer.deferred }

/-- The event loop deletes a timer. -/
def delete (timer : TimerId) : Announcer :=
  { announcer with
    timers := announcer.timers.filter (· ≠ timer)
    active := announcer.active.filter (· ≠ timer)
    deferred := announcer.deferred.filter (· ≠ timer) }

/-- A datagram asks for the server. -/
def discovers (qt : Qt) (datagram : QByteArray) : Bool :=
  match qt.fromJson datagram with
  | none => false
  | some object => typeOf object = qStringLiteral "discover"

/-- `Server::readDatagrams`, on the datagrams that are pending. -/
def readDatagrams (qt : Qt) (datagrams : List QByteArray) : List UInt16 :=
  (datagrams.filter (discovers qt)).flatMap fun _ => announcer.broadcastDiscovery

end Announcer

/-! ## The machine -/

inductive AnnouncerEvent where
  | call (event : ServerEvent)
  | timeout (timer : TimerId)
  | readyRead (datagrams : List QByteArray)
  | deferredDelete (timer : TimerId)

variable (lib : Libraries)

/-- The server with its listeners; the output is the ports that it broadcasts to. -/
def announcerMachine : Machine Announcer AnnouncerEvent (List UInt16) where
  step announcer
    | .call (.start port listen bind env) => some (announcer.start port listen bind env)
    | .call .stop => some (announcer.stop, [])
    | .call event => some (announcer.withServer (announcer.server.react lib event).1, [])
    | .timeout timer =>
        if timer ∈ announcer.active then some (announcer, announcer.broadcastDiscovery) else none
    | .readyRead datagrams =>
        if announcer.udpSocket then some (announcer, announcer.readDatagrams lib.qt datagrams)
        else none
    | .deferredDelete timer =>
        if timer ∈ announcer.deferred then some (announcer.delete timer, []) else none

abbrev AnnouncerEntry := Entry Announcer AnnouncerEvent (List UInt16)

/-! ## The server in it -/

/-- A call, as the server sees it. -/
def callEntry (x : AnnouncerEntry) : Option ServerEntry :=
  match x.act with
  | .call event => some ⟨x.pre.server, event, (x.pre.server.react lib event).2, x.post.server⟩
  | _ => none

/-- The last successful start, with its port. -/
def lastStart (tr : List AnnouncerEntry) : Option (UInt16 × UInt16) :=
  lastSome startedPort (tr.filterMap (callEntry lib))

variable {lib} {x : AnnouncerEntry} {tr : List AnnouncerEntry} {s : Announcer}

theorem start_server (announcer : Announcer) (port : UInt16) (listen : Except QString UInt16)
    (bind : Except QString Unit) (env : Env) :
    (announcer.start port listen bind env).1.server =
      (announcer.server.start port listen bind env).1 := by
  unfold Announcer.start
  simp only
  split <;> rfl

theorem stop_server (announcer : Announcer) : announcer.stop.server = announcer.server.stop.1 := by
  unfold Announcer.stop
  cases announcer.discoveryTimer <;> rfl

/-- A step is a step of the server, or one that leaves it alone. -/
theorem announcer_shows (hdoes : (announcerMachine lib).Does x) :
    Shows (serverMachine lib) Announcer.server x (callEntry lib x) := by
  cases hact : x.act with
  | call event =>
      have hpost : x.post.server = (x.pre.server.react lib event).1 := by
        cases event with
        | start port listen bind env =>
            simp only [Machine.Does, announcerMachine, hact, Option.some.injEq] at hdoes
            have hserver := start_server x.pre port listen bind env
            rw [hdoes] at hserver
            exact hserver
        | stop =>
            simp only [Machine.Does, announcerMachine, hact, Option.some.injEq,
              Prod.mk.injEq] at hdoes
            rw [← hdoes.1]
            exact stop_server x.pre
        | pairingPayload host addresses env | line socket line env =>
            simp only [Machine.Does, announcerMachine, hact, Option.some.injEq,
              Prod.mk.injEq] at hdoes
            rw [← hdoes.1]
            rfl
      rw [callEntry, hact]
      exact ⟨rfl, rfl, does_iff.mpr ⟨hpost, rfl⟩⟩
  | timeout timer | readyRead datagrams | deferredDelete timer =>
      simp only [Machine.Does, announcerMachine, hact] at hdoes
      split_ifs at hdoes
      simp only [Option.some.injEq, Prod.mk.injEq] at hdoes
      rw [callEntry, hact]
      have hserver := congrArg Announcer.server hdoes.1
      exact hserver.symm

/-- **The server of the announcer is the server.** -/
theorem run_announced {announcer : Announcer} (hrun : Run (announcerMachine lib) announcer tr s) :
    Run (serverMachine lib) announcer.server (tr.filterMap (callEntry lib)) s.server :=
  hrun.map (C := fun _ _ => True) Announcer.server (callEntry lib) (fun _ _ _ _ => trivial)
    fun _ _ _ _ _ hdoes => announcer_shows hdoes

/-! ## The resources -/

/-- A start returns whether the server runs. -/
theorem start_isRunning (server : Server) (port : UInt16) (listen : Except QString UInt16)
    (bind : Except QString Unit) (env : Env) :
    (server.start port listen bind env).1.isRunning =
      (server.start port listen bind env).2.1 := by
  unfold Server.start
  cases hrunning : server.isRunning with
  | true => exact hrunning
  | false =>
      by_cases hkey : server.x25519KeyPair.publicKey.length = 32
      · simp only [hkey, ne_eq, not_true_eq_false, Bool.false_eq_true, if_false]
        cases listen with
        | error message => exact hrunning
        | ok bound =>
            cases bind with
            | error message => exact hrunning
            | ok u => rfl
      · simp only [hkey, ne_eq, not_false_eq_true, Bool.false_eq_true, if_false, if_true]
        exact hrunning

theorem start_of_running {server : Server} (hrunning : server.isRunning = true) (port : UInt16)
    (listen : Except QString UInt16) (bind : Except QString Unit) (env : Env) :
    (server.start port listen bind env).1 = server := by
  simp [Server.start, hrunning]

/-- The other calls leave the listener alone. -/
theorem react_tcpServer (server : Server) {event : ServerEvent}
    (hstart : ∀ port listen bind env, event ≠ .start port listen bind env)
    (hstop : event ≠ .stop) : (server.react lib event).1.tcpServer = server.tcpServer := by
  have hcase := react_case lib server event
  generalize (server.react lib event).1 = post at hcase
  cases hcase with
  | running | keyless | failed | listening => exact absurd rfl (hstart _ _ _ _)
  | stopped => exact absurd rfl hstop
  | renewed | shown => rfl
  | line hline => cases hline <;> rfl

variable (lib) in
/-- What a step does to the listeners, with the ports it broadcasts to. -/
inductive ListenerCase (pre : Announcer) : Announcer → List UInt16 → Prop
  | kept {server : Server} (hsame : server.isRunning = pre.server.isRunning) :
      ListenerCase pre (pre.withServer server) []
  | started {server : Server} (hstopped : pre.server.isRunning = false)
      (hrunning : server.isRunning = true) :
      ListenerCase pre (pre.withServer server).startTimer [server.port]
  | stopped : ListenerCase pre pre.stop []
  /-- a timeout -/
  | ticked {timer : TimerId} (hactive : timer ∈ pre.active) :
      ListenerCase pre pre pre.broadcastDiscovery
  /-- datagrams -/
  | asked {datagrams : List QByteArray} (hbound : pre.udpSocket = true) :
      ListenerCase pre pre (pre.readDatagrams lib.qt datagrams)
  | deleted {timer : TimerId} (hdeferred : timer ∈ pre.deferred) :
      ListenerCase pre (pre.delete timer) []

theorem listener_case (hdoes : (announcerMachine lib).Does x) :
    ListenerCase lib x.pre x.post x.out := by
  obtain ⟨pre, act, out, post⟩ := x
  simp only [Machine.Does] at hdoes
  cases act with
  | call event =>
      cases event with
      | start port listen bind env =>
          simp only [announcerMachine, Option.some.injEq] at hdoes
          unfold Announcer.start at hdoes
          have hok := start_isRunning pre.server port listen bind env
          have hkept : pre.server.isRunning = true → _ := fun h =>
            start_of_running h port listen bind env
          generalize pre.server.start port listen bind env = result at hdoes hok hkept
          obtain ⟨server, ok, signals⟩ := result
          simp only at hdoes hok hkept
          cases hrunning : pre.server.isRunning with
          | true =>
              simp only [hrunning, Bool.true_or, if_true, Prod.mk.injEq] at hdoes
              obtain ⟨rfl, rfl⟩ := hdoes
              exact .kept (congrArg Server.isRunning (hkept hrunning))
          | false =>
              cases ok with
              | true =>
                  simp only [hrunning, Bool.not_true, Bool.or_false, Bool.false_eq_true, if_false,
                    Prod.mk.injEq] at hdoes
                  obtain ⟨rfl, rfl⟩ := hdoes
                  exact .started hrunning hok
              | false =>
                  simp only [hrunning, Bool.not_false, Bool.or_true, if_true,
                    Prod.mk.injEq] at hdoes
                  obtain ⟨rfl, rfl⟩ := hdoes
                  exact .kept (hok.trans hrunning.symm)
      | stop =>
          simp only [announcerMachine, Option.some.injEq, Prod.mk.injEq] at hdoes
          obtain ⟨rfl, rfl⟩ := hdoes
          exact .stopped
      | pairingPayload host addresses env | line socket line env =>
          simp only [announcerMachine, Option.some.injEq, Prod.mk.injEq] at hdoes
          obtain ⟨rfl, rfl⟩ := hdoes
          exact .kept (congrArg Option.isSome (react_tcpServer pre.server (by simp) (by simp)))
  | timeout timer =>
      simp only [announcerMachine] at hdoes
      split_ifs at hdoes with hactive
      simp only [Option.some.injEq, Prod.mk.injEq] at hdoes
      obtain ⟨rfl, rfl⟩ := hdoes
      exact .ticked hactive
  | readyRead datagrams =>
      simp only [announcerMachine] at hdoes
      split_ifs at hdoes with hbound
      simp only [Option.some.injEq, Prod.mk.injEq] at hdoes
      obtain ⟨rfl, rfl⟩ := hdoes
      exact .asked hbound
  | deferredDelete timer =>
      simp only [announcerMachine] at hdoes
      split_ifs at hdoes with hdeferred
      simp only [Option.some.injEq, Prod.mk.injEq] at hdoes
      obtain ⟨rfl, rfl⟩ := hdoes
      exact .deleted hdeferred

/-- The two sockets and the timer are there together, `discoveryTimer_` is the one timer that
runs, and the others are about to be deleted. -/
structure Announces (s : Announcer) : Prop where
  bound : s.udpSocket = s.server.isRunning
  timer : s.discoveryTimer.isSome = s.server.isRunning
  active : s.active = s.discoveryTimer.toList
  valid : ∀ timer, s.discoveryTimer = some timer → timer ∈ s.timers ∧ timer ∉ s.deferred
  released : ∀ timer ∈ s.timers, s.discoveryTimer = some timer ∨ timer ∈ s.deferred

/-- The next timer is a new one. -/
def Fresh (s : Announcer) : Prop :=
  ∀ timer, timer ∈ s.timers ∨ timer ∈ s.deferred → timer < s.fresh

theorem announces_startTimer {pre : Announcer} {server : Server} (h : Announces pre)
    (hfresh : Fresh pre) (hstopped : pre.server.isRunning = false)
    (hrunning : server.isRunning = true) :
    Announces (pre.withServer server).startTimer ∧ Fresh (pre.withServer server).startTimer := by
  have hnone : pre.discoveryTimer = none := by
    have htimer := h.timer
    rwa [hstopped, Option.isSome_eq_false_iff, Option.isNone_iff_eq_none] at htimer
  have hactive : pre.active = [] := by rw [h.active, hnone, Option.toList_none]
  refine ⟨⟨hrunning.symm, hrunning.symm, ?_, ?_, ?_⟩, ?_⟩
  · show pre.fresh :: pre.active = [pre.fresh]
    rw [hactive]
  · intro timer htimer
    obtain rfl := Option.some.inj htimer
    exact ⟨List.mem_cons_self, fun hmem => lt_irrefl _ (hfresh pre.fresh (Or.inr hmem))⟩
  · intro timer hmem
    rcases List.mem_cons.mp hmem with rfl | hmem
    · exact Or.inl rfl
    · refine Or.inr ((h.released timer hmem).resolve_left fun hsome => ?_)
      rw [hnone] at hsome
      cases hsome
  · intro timer hmem
    show timer < pre.fresh + 1
    rcases hmem with hmem | hmem
    · rcases List.mem_cons.mp hmem with rfl | hmem
      · exact Nat.lt_succ_self _
      · exact Nat.lt_succ_of_lt (hfresh timer (Or.inl hmem))
    · exact Nat.lt_succ_of_lt (hfresh timer (Or.inr hmem))

theorem announces_stop {pre : Announcer} (h : Announces pre) (hfresh : Fresh pre) :
    Announces pre.stop ∧ Fresh pre.stop := by
  have hactive := h.active
  unfold Announcer.stop
  cases htimer : pre.discoveryTimer with
  | none =>
      rw [htimer] at hactive
      refine ⟨⟨rfl, by simp [Announcer.withServer, htimer, Server.isRunning, Server.stop],
        by simp [Announcer.withServer, htimer, hactive], ?_, ?_⟩, hfresh⟩
      · exact h.valid
      · exact h.released
  | some timer =>
      rw [htimer] at hactive
      refine ⟨⟨rfl, rfl, by simp [hactive], by simp, ?_⟩, ?_⟩
      · intro other hmem
        refine Or.inr (List.mem_cons.mpr ((h.released other hmem).imp_left fun hsome => ?_))
        exact Option.some.inj (hsome.symm.trans htimer)
      · intro other hmem
        rcases hmem with hmem | hmem
        · exact hfresh other (Or.inl hmem)
        · rcases List.mem_cons.mp hmem with rfl | hmem
          · exact hfresh other (Or.inl (h.valid other htimer).1)
          · exact hfresh other (Or.inr hmem)

/-- The timer that is deleted is not the one in use. -/
theorem announces_delete {pre : Announcer} {timer : TimerId} (h : Announces pre)
    (hfresh : Fresh pre) (hdeferred : timer ∈ pre.deferred) :
    Announces (pre.delete timer) ∧ Fresh (pre.delete timer) := by
  have hother : ∀ other, pre.discoveryTimer = some other → other ≠ timer := by
    rintro other hsome rfl
    exact (h.valid other hsome).2 hdeferred
  refine ⟨⟨h.bound, h.timer, ?_, ?_, ?_⟩, ?_⟩
  · show pre.active.filter (· ≠ timer) = pre.discoveryTimer.toList
    rw [h.active, List.filter_eq_self]
    intro other hmem
    simpa using hother other (Option.mem_toList.mp hmem)
  · intro other hsome
    obtain ⟨hmem, hnot⟩ := h.valid other hsome
    refine ⟨List.mem_filter.mpr ⟨hmem, by simpa using hother other hsome⟩, fun hin => ?_⟩
    exact hnot (List.mem_filter.mp hin).1
  · intro other hmem
    obtain ⟨hmem, hne⟩ := List.mem_filter.mp hmem
    exact (h.released other hmem).imp_right fun hin => List.mem_filter.mpr ⟨hin, hne⟩
  · intro other hmem
    exact hfresh other (hmem.imp (fun hin => (List.mem_filter.mp hin).1)
      fun hin => (List.mem_filter.mp hin).1)

theorem announces_step (hdoes : (announcerMachine lib).Does x) (h : Announces x.pre)
    (hfresh : Fresh x.pre) : Announces x.post ∧ Fresh x.post := by
  have hcase := listener_case hdoes
  generalize x.post = post at hcase
  generalize x.out = out at hcase
  cases hcase with
  | kept hsame =>
      exact ⟨⟨h.bound.trans hsame.symm, h.timer.trans hsame.symm, h.active, h.valid, h.released⟩,
        hfresh⟩
  | started hstopped hrunning => exact announces_startTimer h hfresh hstopped hrunning
  | stopped => exact announces_stop h hfresh
  | ticked | asked => exact ⟨h, hfresh⟩
  | deleted hdeferred => exact announces_delete h hfresh hdeferred

theorem readDatagrams_eq (announcer : Announcer) (qt : Qt) (datagrams : List QByteArray) :
    announcer.readDatagrams qt datagrams =
      List.replicate (datagrams.countP (Announcer.discovers qt)) announcer.server.port := by
  unfold Announcer.readDatagrams Announcer.broadcastDiscovery
  rw [List.countP_eq_length_filter]
  induction datagrams.filter (Announcer.discovers qt) with
  | nil => rfl
  | cons datagram rest ih =>
      rw [List.flatMap_cons, ih, List.length_cons, List.replicate_succ, List.singleton_append]

/-- Whoever broadcasts, runs. -/
theorem broadcasts_step (hdoes : (announcerMachine lib).Does x) (h : Announces x.pre)
    {port : UInt16} (hport : port ∈ x.out) :
    x.post.server.isRunning = true ∧ x.post.server.port = port := by
  have hcase := listener_case hdoes
  generalize x.post = post at hcase
  generalize x.out = out at hcase hport
  cases hcase with
  | kept | stopped | deleted => cases hport
  | started hstopped hrunning => exact ⟨hrunning, (List.mem_singleton.mp hport).symm⟩
  | ticked hactive =>
      rw [h.active, Option.mem_toList] at hactive
      refine ⟨?_, (List.mem_singleton.mp hport).symm⟩
      rw [← h.timer, hactive]
      rfl
  | asked hbound =>
      rw [readDatagrams_eq] at hport
      exact ⟨h.bound.symm.trans hbound, (List.eq_of_mem_replicate hport).symm⟩

theorem announces_run {pcId : QByteArray} {keyPair : X25519KeyPair}
    (hrun : Run (announcerMachine lib) (.initial pcId keyPair) tr s) : Announces s ∧ Fresh s := by
  refine hrun.invariant (P := fun s => Announces s ∧ Fresh s) ⟨⟨rfl, rfl, rfl, nofun, ?_⟩, ?_⟩
    fun x hdoes h => announces_step hdoes h.1 h.2
  · exact fun _ hmem => absurd hmem List.not_mem_nil
  · exact fun _ hmem => absurd hmem (by simp [Announcer.initial])

/-- **The server announces itself as long as it can be reached**, in every run: its two
sockets and its one timer are there together; it broadcasts while it runs only, to the port
of the last start that has succeeded; and whoever asks is answered exactly then. -/
theorem announcing {pcId : QByteArray} {keyPair : X25519KeyPair}
    (hrun : Run (announcerMachine lib) (.initial pcId keyPair) tr s) :
    Announces s ∧
      Along (fun pre x => ∀ port ∈ x.out, x.post.server.isRunning = true ∧
        ∃ bound, lastStart lib (pre ++ [x]) = some (port, bound)) tr ∧
      ∀ datagrams, (announcerMachine lib).step s (.readyRead datagrams) =
        if s.server.isRunning then
          some (s, List.replicate (datagrams.countP (Announcer.discovers lib.qt)) s.server.port)
        else none := by
  refine ⟨(announces_run hrun).1, ?_, fun datagrams => ?_⟩
  · rintro pre x post rfl port hport
    obtain ⟨hpre, hdoes⟩ := hrun.split
    obtain ⟨hrunning, rfl⟩ := broadcasts_step hdoes (announces_run hpre).1 hport
    obtain ⟨bound, hbound⟩ := Option.isSome_iff_exists.mp hrunning
    exact ⟨hrunning, bound, (listens_run (run_announced (hpre.snoc hdoes))).started bound hbound⟩
  · rw [← readDatagrams_eq, ← (announces_run hrun).1.bound]
    rfl

/-! ## A run -/

/-- The server is started, started once more to no effect, stopped, and started on another
port, before the event loop has deleted the first timer. -/
def announcedEvents : List AnnouncerEvent :=
  [.call startEvent, .call (.start 7000 (.ok 7000) (.ok ()) (standing sampleTime 0)), .timeout 0,
    .call .stop, .call (.start 7000 (.ok 7000) (.ok ()) (standing sampleTime 0)),
    .deferredDelete 0, .timeout 1]

def announcedTrace : List AnnouncerEntry :=
  (announcerMachine (recording [] []).libraries).trace (.initial samplePcId sampleKeyPair)
    announcedEvents

theorem announcing_sample :
    announcedTrace.flatMap Entry.out = [43295, 43295, 7000, 7000] ∧
      Announces ((announcerMachine (recording [] []).libraries).final
        (.initial samplePcId sampleKeyPair) announcedEvents) := by
  have hannounces := (announcing (Run.trace (announcerMachine (recording [] []).libraries)
    (.initial samplePcId sampleKeyPair) announcedEvents)).1
  exact ⟨by decide +kernel, hannounces⟩

end OpenBioUnlock.Desktop

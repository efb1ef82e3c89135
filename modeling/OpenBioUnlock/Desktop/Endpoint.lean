import OpenBioUnlock.Desktop.Pairing

/-!
# The endpoint the desktop server advertises

`start` binds the listener to the loopback address and to the port it is given, or one the
system chooses for port 0.  `pairingPayload` without a host scans the interfaces for an
IPv4 address that is no loopback address, and writes the port that was asked for.

`endpoint_iff` says in every run when the two fit: the phone finds the listener exactly if
the scan finds nothing, and the port was not left to the system.
-/

namespace OpenBioUnlock.Desktop

open Codec Runs

/-! ## Addresses -/

/-- An address of a network interface. -/
inductive InterfaceAddress where
  | ipv4 (a b c d : UInt8)
  | ipv6 (text : QString) (isLoopback isMulticast : Bool)

/-- `QHostAddress::toString` of an IPv4 address. -/
def dotted (a b c d : UInt8) : QString :=
  fromLatin1 (digitsOf 10 a.toNat ++ 46 :: (digitsOf 10 b.toNat ++ 46 :: (digitsOf 10 c.toNat ++
    46 :: digitsOf 10 d.toNat)))

def InterfaceAddress.host : InterfaceAddress → HostAddress
  | .ipv4 a b c d =>
      { isIPv4 := true
        isLoopback := a = 127
        isMulticast := 224 ≤ a && a ≤ 239
        text := dotted a b c d }
  | .ipv6 text isLoopback isMulticast => ⟨false, isLoopback, isMulticast, text⟩

/-- An address the scan takes. -/
def InterfaceAddress.Eligible (address : InterfaceAddress) : Prop :=
  address.host.isIPv4 && !address.host.isLoopback && !address.host.isMulticast

/-- `QHostAddress::LocalHost`, which the listener is bound to. -/
def localHost : QString := qStringLiteral "127.0.0.1"

/-- The digits of a byte end at the dot. -/
theorem takeWhile_digits (n : UInt8) (rest : QByteArray) :
    (digitsOf 10 n.toNat ++ 46 :: rest).takeWhile (· ≠ 46) = digitsOf 10 n.toNat := by
  have key : ∀ n : Fin 256, (digitsOf 10 n.val).all (· ≠ 46) = true := by decide +kernel
  have hdigits := List.all_eq_true.mp (key ⟨n.toNat, n.toNat_lt⟩)
  rw [List.takeWhile_append_of_pos hdigits]
  simp

/-- Another first byte makes another address. -/
theorem dotted_ne_localHost {a b c d : UInt8} (h : a ≠ 127) : dotted a b c d ≠ localHost := by
  intro heq
  have key : ∀ n : Fin 256, digitsOf 10 n.val = ascii "127" → n.val = 127 := by decide +kernel
  have hbytes := congrArg toLatin1 heq
  rw [dotted, toLatin1_fromLatin1] at hbytes
  have hfirst := congrArg (List.takeWhile (· ≠ 46)) hbytes
  rw [takeWhile_digits] at hfirst
  have hnat := key ⟨a.toNat, a.toNat_lt⟩ (hfirst.trans (by decide))
  exact h (UInt8.toNat_inj.mp hnat)

theorem dotted_ne_nil (a b c d : UInt8) : dotted a b c d ≠ [] := by
  simp [dotted, fromLatin1]

/-- **The scan finds the loopback address** exactly if it finds nothing. -/
theorem endpoint_eq_localHost {addresses : List InterfaceAddress} :
    endpoint [] (addresses.map InterfaceAddress.host) = localHost ↔
      ∀ a ∈ addresses, ¬ a.Eligible := by
  have hscan : ∀ hosts : List HostAddress, endpoint [] hosts =
      let chosen := ((hosts.find? fun a => a.isIPv4 && !a.isLoopback && !a.isMulticast).map
        HostAddress.text).getD []
      if chosen = [] then localHost else chosen := fun _ => rfl
  rw [hscan, List.find?_map]
  cases hfound : addresses.find? ((fun a : HostAddress => a.isIPv4 && !a.isLoopback &&
      !a.isMulticast) ∘ InterfaceAddress.host) with
  | none =>
      simp only [Option.map_none, Option.getD_none, if_true, true_iff]
      exact fun a ha => List.find?_eq_none.mp hfound a ha
  | some address =>
      have htaken := List.find?_some hfound
      have heligible : address.Eligible := htaken
      have hmem := List.mem_of_find?_eq_some hfound
      have hno : ¬ ∀ a ∈ addresses, ¬ a.Eligible := fun h => h address hmem heligible
      simp only [Option.map_some, Option.getD_some, hno, iff_false]
      cases address with
      | ipv6 text isLoopback isMulticast =>
          simp [InterfaceAddress.Eligible, InterfaceAddress.host] at heligible
      | ipv4 a b c d =>
          have hother : a ≠ 127 := by
            rintro rfl
            simp [InterfaceAddress.Eligible, InterfaceAddress.host] at heligible
          show ¬ (if dotted a b c d = [] then localHost else dotted a b c d) = localHost
          rw [if_neg (dotted_ne_nil a b c d)]
          exact dotted_ne_localHost hother

/-! ## The listener -/

/-- The port a step starts the listener with, and the port it is bound to. -/
def startedPort (x : ServerEntry) : Option (UInt16 × UInt16) :=
  match x.act with
  | .start port (.ok bound) (.ok ()) _ =>
      if x.pre.isRunning || x.pre.x25519KeyPair.publicKey.length ≠ 32 then none
      else some (port, bound)
  | _ => none

variable {lib : Libraries} {x : ServerEntry}

theorem tcpServer_of_stopped {server : Server} (h : server.isRunning = false) :
    server.tcpServer = none := by
  simpa [Server.isRunning] using h

/-- **What a step does to the listener**: it starts it, it stops it, or it leaves it and
its port alone. -/
theorem listener_step (hdoes : (serverMachine lib).Does x) :
    (∃ port bound, startedPort x = some (port, bound) ∧ x.post.tcpServer = some bound ∧
        x.post.port = port ∧ x.post.x25519KeyPair.publicKey.length = 32) ∨
      (startedPort x = none ∧ x.post.tcpServer = none) ∨
      (startedPort x = none ∧ x.post.tcpServer = x.pre.tcpServer ∧
        (x.pre.isRunning = true → x.post.port = x.pre.port) ∧
        x.post.x25519KeyPair = x.pre.x25519KeyPair) := by
  have hcase := does_case hdoes
  generalize hact : x.act = act at hcase
  generalize x.post = post at hcase
  cases hcase with
  | running hrunning =>
      refine Or.inr (Or.inr ⟨?_, rfl, fun _ => rfl, rfl⟩)
      simp only [startedPort, hact]
      split <;> simp [hrunning]
  | keyless hstopped hkey =>
      refine Or.inr (Or.inl ⟨?_, tcpServer_of_stopped hstopped⟩)
      simp only [startedPort, hact]
      split <;> simp [hkey]
  | failed hstopped hkey hfailed =>
      refine Or.inr (Or.inl ⟨?_, tcpServer_of_stopped hstopped⟩)
      simp only [startedPort, hact]
      split
      · rename_i heq
        cases heq
        exact absurd rfl (hfailed _ rfl)
      · rfl
  | listening hstopped hkey =>
      refine Or.inl ⟨_, _, ?_, rfl, rfl, hkey⟩
      simp [startedPort, hact, hstopped, hkey]
  | stopped => exact Or.inr (Or.inl ⟨by simp only [startedPort, hact], rfl⟩)
  | renewed | shown =>
      exact Or.inr (Or.inr ⟨by simp only [startedPort, hact], rfl, fun _ => rfl, rfl⟩)
  | line hline =>
      refine Or.inr (Or.inr ⟨by simp only [startedPort, hact], ?_⟩)
      cases hline <;> exact ⟨rfl, fun _ => rfl, rfl⟩

/-- The listener of a running server was started by the last step that started it. -/
structure Listens (tr : List ServerEntry) (s : Server) : Prop where
  started : ∀ bound, s.tcpServer = some bound → lastSome startedPort tr = some (s.port, bound)
  keyLength : s.isRunning = true → s.x25519KeyPair.publicKey.length = 32

theorem listens_run {pcId : QByteArray} {keyPair : X25519KeyPair} {tr : List ServerEntry}
    {s : Server} (hrun : Run (serverMachine lib) (Server.initial pcId keyPair) tr s) :
    Listens tr s := by
  refine Run.history (P := Listens) hrun ⟨by simp [Server.initial], by
    simp [Server.isRunning, Server.initial]⟩ ?_
  rintro tr x - hdoes h
  rcases listener_step hdoes with ⟨port, bound, hstarted, hserver, rfl, hkey⟩ |
    ⟨hnone, hserver⟩ | ⟨hnone, hserver, hport, hkey⟩
  · refine ⟨fun bound' hbound' => ?_, fun _ => hkey⟩
    obtain rfl := Option.some.inj (hserver.symm.trans hbound')
    rw [lastSome_snoc, hstarted, Option.some_or]
  · refine ⟨fun bound' hbound' => ?_, fun hrunning => ?_⟩
    · rw [hserver] at hbound'
      cases hbound'
    · rw [Server.isRunning, hserver] at hrunning
      cases hrunning
  · refine ⟨fun bound' hbound' => ?_, fun hrunning => ?_⟩
    · rw [hserver] at hbound'
      rw [lastSome_snoc, hnone, Option.none_or, hport (by rw [Server.isRunning, hbound']; rfl)]
      exact h.started bound' hbound'
    · rw [Server.isRunning, hserver] at hrunning
      rw [hkey]
      exact h.keyLength hrunning

/-! ## What is advertised -/

/-- The object `pairingPayload` writes. -/
def pairingObject (server : Server) (host code : QString) : QJsonObject :=
  [field "version" (.integer 1), field "host" (.string host),
    field "port" (.integer (Int64.ofNat server.port.toNat)), field "pc_id" (hexText server.pcId),
    field "x25519_public_key" (hexText server.x25519KeyPair.publicKey),
    field "pairing_code" (.string code)]

theorem pairingPayload_eq (qt : Qt) (server : Server) (host : QString)
    (addresses : List HostAddress) (env : Env) :
    server.pairingPayload qt host addresses env = (server.refreshCode env,
      qt.toJson (pairingObject server (endpoint host addresses)
        (server.refreshCode env).pairingCode)) := rfl

/-- The object it writes without a host. -/
def advertised (server : Server) (addresses : List InterfaceAddress) (env : Env) : QJsonObject :=
  pairingObject server (endpoint [] (addresses.map InterfaceAddress.host))
    (server.refreshCode env).pairingCode

/-- The listener accepts connections at the host and the port of the object. -/
def AcceptsAt (server : Server) (object : QJsonObject) : Prop :=
  ∃ port : UInt16, value object "host" = .string localHost ∧
    value object "port" = .integer (Int64.ofNat port.toNat) ∧ server.tcpServer = some port

/-- `listen` binds the port it is given; the system chooses one for port 0. -/
def HonestListen (x : ServerEntry) : Prop :=
  ∀ port bound bind env, x.act = .start port (.ok bound) bind env →
    (port ≠ 0 → bound = port) ∧ (port = 0 → bound ≠ 0)

theorem ofNat_port_injective {p q : UInt16} (h : Int64.ofNat p.toNat = Int64.ofNat q.toNat) :
    p = q := by
  have hp := p.toNat_lt
  have hq := q.toNat_lt
  have hint := congrArg Int64.toInt h
  rw [Int64.toInt_ofNat_of_lt (by omega), Int64.toInt_ofNat_of_lt (by omega)] at hint
  exact UInt16.toNat_inj.mp (Int.ofNat.inj hint)

/-- The port advertised is the one bound, exactly if it was not left to the system. -/
theorem bound_iff {tr : List ServerEntry} {port bound : UInt16}
    (hlisten : ∀ x ∈ tr, HonestListen x) (h : lastSome startedPort tr = some (port, bound)) :
    bound = port ↔ port ≠ 0 := by
  obtain ⟨x, hx, hstarted⟩ := mem_of_lastSome h
  unfold startedPort at hstarted
  split at hstarted
  · rename_i port' bound' env hact
    split_ifs at hstarted
    obtain ⟨rfl, rfl⟩ := Prod.mk.inj (Option.some.inj hstarted)
    obtain ⟨hgiven, hchosen⟩ := hlisten x hx _ _ _ _ hact
    refine ⟨fun hsame hzero => ?_, hgiven⟩
    exact hchosen hzero (hsame.trans hzero)
  · cases hstarted

variable {pcId : QByteArray} {keyPair : X25519KeyPair} {tr : List ServerEntry} {s : Server}

/-- **The advertised endpoint is the listener's** exactly if the server was started on a
port other than 0 and no interface has an IPv4 address that the scan takes. -/
theorem endpoint_iff (hrun : Run (serverMachine lib) (Server.initial pcId keyPair) tr s)
    (hlisten : ∀ x ∈ tr, HonestListen x) (hrunning : s.isRunning = true)
    (addresses : List InterfaceAddress) (env : Env) :
    s.pairingPayload lib.qt [] (addresses.map InterfaceAddress.host) env =
        (s.refreshCode env, lib.qt.toJson (advertised s addresses env)) ∧
      (AcceptsAt (s.refreshCode env) (advertised s addresses env) ↔
        (∃ port bound, lastSome startedPort tr = some (port, bound) ∧ port ≠ 0) ∧
          ∀ a ∈ addresses, ¬ a.Eligible) := by
  refine ⟨pairingPayload_eq lib.qt s [] _ env, ?_⟩
  obtain ⟨bound, hserver⟩ := Option.isSome_iff_exists.mp hrunning
  have hstarted := (listens_run hrun).started bound hserver
  have hbound := bound_iff hlisten hstarted
  have hrefreshed : (s.refreshCode env).tcpServer = some bound := by
    rw [Server.refreshCode]
    split <;> exact hserver
  rw [← endpoint_eq_localHost]
  constructor
  · rintro ⟨port, hhost, hport, hlistens⟩
    obtain rfl := Option.some.inj (hrefreshed.symm.trans hlistens)
    have hsame := ofNat_port_injective (QJsonValue.integer.inj hport)
    exact ⟨⟨s.port, bound, hstarted, hbound.mp hsame.symm⟩, QJsonValue.string.inj hhost⟩
  · rintro ⟨⟨port, bound', hlast, hne⟩, hhost⟩
    obtain ⟨rfl, rfl⟩ := Prod.mk.inj (Option.some.inj (hstarted.symm.trans hlast))
    refine ⟨bound, ?_, ?_, hrefreshed⟩
    · exact congrArg QJsonValue.string hhost
    · rw [hbound.mpr hne]
      rfl

/-! ## Two interfaces -/

theorem honestListen_of_act {x : ServerEntry} {port bound : UInt16} {bind : Except QString Unit}
    {env : Env} (hact : x.act = .start port (.ok bound) bind env)
    (h : (port ≠ 0 → bound = port) ∧ (port = 0 → bound ≠ 0)) : HonestListen x := by
  intro port' bound' bind' env' hact'
  cases hact.symm.trans hact'
  exact h

/-- The server is started on `port` and bound to `bound`. -/
def startedTrace (port bound : UInt16) : List ServerEntry :=
  sampleTrace (recording [] [])
    [.start port (.ok bound) (.ok ()) (standing sampleTime 0x1122334455667788)]

def loopbackAddress : InterfaceAddress := .ipv4 127 0 0 1

def lanAddress : InterfaceAddress := .ipv4 192 168 1 10

def loopbackOnly : List InterfaceAddress := [loopbackAddress]

/-- Where the server is on the network. -/
def onNetwork : List InterfaceAddress := [loopbackAddress, lanAddress]

theorem honest_started {port bound : UInt16}
    (h : (port ≠ 0 → bound = port) ∧ (port = 0 → bound ≠ 0)) :
    ∀ x ∈ startedTrace port bound, HonestListen x := by
  intro x hx
  obtain rfl := List.mem_singleton.mp hx
  exact honestListen_of_act rfl h

/-- The state of the server after it was started. -/
def startedServer (port bound : UInt16) : Server :=
  (serverMachine (recording [] []).libraries).final (Server.initial samplePcId sampleKeyPair)
    [.start port (.ok bound) (.ok ()) (standing sampleTime 0x1122334455667788)]

theorem run_started (port bound : UInt16) :
    Run (serverMachine (recording [] []).libraries) (Server.initial samplePcId sampleKeyPair)
      (startedTrace port bound) (startedServer port bound) := Run.trace _ _ _

theorem endpoint_iff_sample :
    AcceptsAt ((startedServer 43295 43295).refreshCode (standing sampleTime 0))
      (advertised (startedServer 43295 43295) loopbackOnly (standing sampleTime 0)) := by
  have hlast : lastSome startedPort (startedTrace 43295 43295) = some (43295, 43295) := by
    decide +kernel
  have hscan : ∀ a ∈ loopbackOnly, ¬ a.Eligible := by
    intro a ha
    obtain rfl := List.mem_singleton.mp ha
    simp [InterfaceAddress.Eligible, InterfaceAddress.host, loopbackAddress]
  exact (endpoint_iff (run_started 43295 43295) (honest_started (by decide)) (by decide +kernel)
    loopbackOnly (standing sampleTime 0)).2.mpr ⟨⟨43295, 43295, hlast, by decide⟩, hscan⟩

/-- On the network, the host advertised is one the listener is not bound to; and started on
port 0, the port advertised is 0. -/
theorem endpoint_fails :
    endpoint [] (onNetwork.map InterfaceAddress.host) = qStringLiteral "192.168.1.10" ∧
      (startedServer 0 50123).port = 0 ∧ (startedServer 0 50123).tcpServer = some 50123 ∧
      ¬ ∀ lib pcId keyPair tr s, Run (serverMachine lib) (Server.initial pcId keyPair) tr s →
        (∀ x ∈ tr, HonestListen x) → s.isRunning = true → ∀ addresses env,
          AcceptsAt (s.refreshCode env) (advertised s addresses env) := by
  have hhost : endpoint [] (onNetwork.map InterfaceAddress.host) =
      qStringLiteral "192.168.1.10" := by decide +kernel
  have hports : (startedServer 0 50123).port = 0 ∧
      (startedServer 0 50123).tcpServer = some 50123 := by decide +kernel
  refine ⟨hhost, hports.1, hports.2, fun h => ?_⟩
  obtain ⟨port, haccepts, -⟩ := h _ _ _ _ _ (run_started 43295 43295) (honest_started (by decide))
    (by decide +kernel) onNetwork (standing sampleTime 0)
  have hsame := QJsonValue.string.inj haccepts
  rw [hhost] at hsame
  exact absurd hsame (by decide)

end OpenBioUnlock.Desktop

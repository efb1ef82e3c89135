import OpenBioUnlock.Machine.Run
import OpenBioUnlock.Mobile.Dart

/-!
# The BLE service of the phone

`startProximityScan` and `stop` of `ble_service.dart`, and the listener that turns scan
results into proximity events.

A call is a task that stands at one of its awaits: at `cancel()`, or at a call of the
Bluetooth plugin, which takes effect some time before the task goes on.  What happens
between two awaits is one step, and `bleMachine` takes the steps of any number of calls
in any order.  `cancel()` ends a subscription at once; the plugin does not fail.

A subscription is known by its number.  The listener of a subscription has the
thresholds of the call that made it, and the map `_nearby` of the service.
-/

namespace OpenBioUnlock.Mobile

open Runs

/-! ## Scan results -/

/-- A UUID of 128 bits. -/
abbrev Guid := BitVec 128

def openBioUnlockService : Guid := 0x8c4f10007f7b4c42a6be6f5b4b7e0001

abbrev DeviceIdentifier := DString

structure ScanResult where
  remoteId : DeviceIdentifier
  rssi : ℤ
  serviceUuids : List Guid

/-- `advertisementData.serviceUuids.contains(openBioUnlockService)`. -/
def ScanResult.advertises (result : ScanResult) : Bool :=
  result.serviceUuids.contains openBioUnlockService

structure ProximityEvent where
  device : DeviceIdentifier
  rssi : ℤ
  nearby : Bool
  deriving DecidableEq

structure Thresholds where
  near : ℤ
  far : ℤ

/-- The default values of the parameters. -/
def defaultThresholds : Thresholds := ⟨-70, -82⟩

/-- `_nearby`. -/
abbrev NearbyMap := DeviceIdentifier → Option Bool

/-- One turn of the listener's loop. -/
def onResult (t : Thresholds) (nearby : NearbyMap) (result : ScanResult) :
    NearbyMap × List ProximityEvent :=
  if result.advertises then
    let previous := (nearby result.remoteId).getD false
    let now : Bool := if previous then t.far ≤ result.rssi else t.near ≤ result.rssi
    (Function.update nearby result.remoteId (some now), [⟨result.remoteId, result.rssi, now⟩])
  else (nearby, [])

/-- The listener: the map after a batch, and the events added to the stream. -/
def onResults (t : Thresholds) : NearbyMap → List ScanResult → NearbyMap × List ProximityEvent
  | nearby, [] => (nearby, [])
  | nearby, result :: results =>
      let (nearby, event) := onResult t nearby result
      let (nearby, events) := onResults t nearby results
      (nearby, event ++ events)

/-! ## State -/

inductive ScanCall where
  | startProximityScan (t : Thresholds)
  | stop

/-- What a task awaits. -/
inductive ScanPhase where
  /-- `_subscription?.cancel()` -/
  | cancelling
  /-- `FlutterBluePlus.stopScan`, and the same with the scan stopped -/
  | stopping
  | stopped
  /-- `FlutterBluePlus.startScan`, and the same with the scan started -/
  | starting
  | started

structure ScanTask where
  call : ScanCall
  phase : ScanPhase

structure BleService where
  /-- `_subscription` -/
  subscription : Option ℕ
  nearby : NearbyMap
  /-- the subscriptions that are not cancelled -/
  live : ℕ → Option Thresholds
  /-- how many there have been -/
  created : ℕ
  scanning : Bool
  /-- the calls that have not completed -/
  tasks : ℕ → Option ScanTask

/-- A service that has just been constructed, on a phone that does not scan. -/
def BleService.constructed : BleService where
  subscription := none
  nearby _ := none
  live _ := none
  created := 0
  scanning := false
  tasks _ := none

/-- What a caller does, what the plugin does, and what the event loop does. -/
inductive BleEvent where
  | call (id : ℕ) (call : ScanCall)
  /-- the scan a task waits for is stopped or started -/
  | plugin (id : ℕ)
  | resume (id : ℕ)
  /-- a batch reaches the listener of a subscription -/
  | results (k : ℕ) (results : List ScanResult)

/-! ## Steps -/

namespace BleService

variable (s : BleService) (id : ℕ)

def goto (task : ScanTask) : BleService :=
  { s with tasks := Function.update s.tasks id (some task) }

def finish : BleService :=
  { s with tasks := Function.update s.tasks id none }

/-- `_subscription?.cancel()`. -/
def cancelSubscription : BleService :=
  match s.subscription with
  | none => s
  | some k => { s with live := Function.update s.live k none }

/-- `_subscription = FlutterBluePlus.onScanResults.listen(...)`. -/
def listen (t : Thresholds) : BleService :=
  { s with
    subscription := some s.created
    live := Function.update s.live s.created (some t)
    created := s.created + 1 }

/-- `_subscription = null; _nearby.clear();` -/
def forget : BleService :=
  { s with
    subscription := none
    nearby := fun _ => none }

def scan (on : Bool) : BleService :=
  { s with scanning := on }

/-- A call, up to its first await. -/
def call : ScanCall → BleService
  | .startProximityScan t => s.cancelSubscription.goto id ⟨.startProximityScan t, .cancelling⟩
  | .stop => s.goto id ⟨.stop, .stopping⟩

/-- The plugin carries out what the task awaits. -/
def plugin (task : ScanTask) : Option BleService :=
  match task.phase with
  | .stopping => some ((s.scan false).goto id { task with phase := .stopped })
  | .starting => some ((s.scan true).goto id { task with phase := .started })
  | _ => none

/-- A task goes on from an await to the next. -/
def resume : ScanTask → Option BleService
  | ⟨.startProximityScan t, .cancelling⟩ => some (s.goto id ⟨.startProximityScan t, .stopping⟩)
  | ⟨.startProximityScan t, .stopped⟩ =>
      some ((s.listen t).goto id ⟨.startProximityScan t, .starting⟩)
  | ⟨.startProximityScan _, .started⟩ => some (s.finish id)
  | ⟨.stop, .stopped⟩ => some (s.cancelSubscription.goto id ⟨.stop, .cancelling⟩)
  | ⟨.stop, .cancelling⟩ => some (s.forget.finish id)
  | _ => none

end BleService

/-- The calls on one `BleService`, in any order of their steps. -/
def bleMachine : Machine BleService BleEvent (List ProximityEvent) where
  step s
    | .call id call =>
        match s.tasks id with
        | none => some (s.call id call, [])
        | some _ => none
    | .plugin id => ((s.tasks id).bind (s.plugin id)).map fun s => (s, [])
    | .resume id => ((s.tasks id).bind (s.resume id)).map fun s => (s, [])
    | .results k results =>
        (s.live k).map fun t =>
          let (nearby, events) := onResults t s.nearby results
          ({ s with nearby }, events)

abbrev BleEntry := Entry BleService BleEvent (List ProximityEvent)

/-! ## What a step does -/

/-- The steps from `s`. -/
inductive BleStep (s : BleService) : BleEvent → List ProximityEvent → BleService → Prop
  | start {id : ℕ} {t : Thresholds} (h : s.tasks id = none) :
      BleStep s (.call id (.startProximityScan t)) []
        (s.cancelSubscription.goto id ⟨.startProximityScan t, .cancelling⟩)
  | stop {id : ℕ} (h : s.tasks id = none) :
      BleStep s (.call id .stop) [] (s.goto id ⟨.stop, .stopping⟩)
  | stopsScan {id : ℕ} {call : ScanCall} (h : s.tasks id = some ⟨call, .stopping⟩) :
      BleStep s (.plugin id) [] ((s.scan false).goto id ⟨call, .stopped⟩)
  | startsScan {id : ℕ} {call : ScanCall} (h : s.tasks id = some ⟨call, .starting⟩) :
      BleStep s (.plugin id) [] ((s.scan true).goto id ⟨call, .started⟩)
  | startCancelled {id : ℕ} {t : Thresholds}
      (h : s.tasks id = some ⟨.startProximityScan t, .cancelling⟩) :
      BleStep s (.resume id) [] (s.goto id ⟨.startProximityScan t, .stopping⟩)
  | listens {id : ℕ} {t : Thresholds} (h : s.tasks id = some ⟨.startProximityScan t, .stopped⟩) :
      BleStep s (.resume id) [] ((s.listen t).goto id ⟨.startProximityScan t, .starting⟩)
  | startReturns {id : ℕ} {t : Thresholds}
      (h : s.tasks id = some ⟨.startProximityScan t, .started⟩) :
      BleStep s (.resume id) [] (s.finish id)
  | stopCancels {id : ℕ} (h : s.tasks id = some ⟨.stop, .stopped⟩) :
      BleStep s (.resume id) [] (s.cancelSubscription.goto id ⟨.stop, .cancelling⟩)
  | stopReturns {id : ℕ} (h : s.tasks id = some ⟨.stop, .cancelling⟩) :
      BleStep s (.resume id) [] (s.forget.finish id)
  | results {k : ℕ} {t : Thresholds} {results : List ScanResult} (h : s.live k = some t) :
      BleStep s (.results k results) (onResults t s.nearby results).2
        { s with nearby := (onResults t s.nearby results).1 }

/-- **Every step is one of these.** -/
theorem ble_step {x : BleEntry} (hdoes : bleMachine.Does x) : BleStep x.pre x.act x.out x.post := by
  obtain ⟨s, act, out, s'⟩ := x
  cases act with
  | call id call =>
      simp only [Machine.Does, bleMachine] at hdoes
      split at hdoes
      · rename_i hfree
        cases hdoes
        cases call with
        | startProximityScan t => exact .start hfree
        | stop => exact .stop hfree
      · cases hdoes
  | plugin id =>
      simp only [Machine.Does, bleMachine, Option.map_eq_some_iff, Option.bind_eq_some_iff] at hdoes
      obtain ⟨_, ⟨⟨call, phase⟩, htask, hplugin⟩, hpost⟩ := hdoes
      cases hpost
      cases phase with
      | stopping =>
          cases hplugin
          exact .stopsScan htask
      | starting =>
          cases hplugin
          exact .startsScan htask
      | _ => cases hplugin
  | resume id =>
      simp only [Machine.Does, bleMachine, Option.map_eq_some_iff, Option.bind_eq_some_iff] at hdoes
      obtain ⟨_, ⟨task, htask, hresume⟩, hpost⟩ := hdoes
      cases hpost
      unfold BleService.resume at hresume
      split at hresume
      · cases hresume
        exact .startCancelled htask
      · cases hresume
        exact .listens htask
      · cases hresume
        exact .startReturns htask
      · cases hresume
        exact .stopCancels htask
      · cases hresume
        exact .stopReturns htask
      · cases hresume
  | results k results =>
      simp only [Machine.Does, bleMachine, Option.map_eq_some_iff] at hdoes
      obtain ⟨t, hlive, hpost⟩ := hdoes
      cases hpost
      exact .results hlive

/-! ## Fields -/

namespace BleService

variable {s : BleService} {id k : ℕ} {t : Thresholds}

@[simp] theorem cancelSubscription_nearby : s.cancelSubscription.nearby = s.nearby := by
  unfold cancelSubscription
  split <;> rfl

@[simp] theorem cancelSubscription_tasks : s.cancelSubscription.tasks = s.tasks := by
  unfold cancelSubscription
  split <;> rfl

@[simp] theorem cancelSubscription_subscription :
    s.cancelSubscription.subscription = s.subscription := by
  unfold cancelSubscription
  split <;> rfl

@[simp] theorem cancelSubscription_created : s.cancelSubscription.created = s.created := by
  unfold cancelSubscription
  split <;> rfl

@[simp] theorem cancelSubscription_scanning : s.cancelSubscription.scanning = s.scanning := by
  unfold cancelSubscription
  split <;> rfl

/-- A subscription that is still live was, and is another one. -/
theorem cancelSubscription_live :
    s.cancelSubscription.live k = some t ↔ s.live k = some t ∧ s.subscription ≠ some k := by
  unfold cancelSubscription
  split
  · rename_i hsub
    simp [hsub]
  · rename_i k' hsub
    by_cases hk : k = k'
    · subst hk
      simp [hsub]
    · simp [hsub, hk, Ne.symm hk]

theorem listen_live {t' : Thresholds} :
    (s.listen t).live k = some t' ↔ k = s.created ∧ t = t' ∨ k ≠ s.created ∧ s.live k = some t' := by
  by_cases hk : k = s.created
  · subst hk
    simp [listen]
  · simp [listen, hk]

end BleService

end OpenBioUnlock.Mobile

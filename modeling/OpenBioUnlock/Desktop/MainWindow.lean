import OpenBioUnlock.Desktop.Qt
import OpenBioUnlock.Machine.Hysteresis

/-!
# The main window

`ui/main_window.cpp`: the list of devices, the two thresholds of the proximity
triggers, and the log.

The thresholds are the values of two spin boxes, which stay in their range.  A change
of either emits `valueChanged`, and `proximityChanged` may then change the near
threshold, which emits the signal once more.

A device is listed when it is paired, or when a Bluetooth advertisement of it is at
least as strong as the near threshold; the far threshold decides nothing
(`listed_iff`).
-/

namespace OpenBioUnlock.Desktop

open Runs

/-! ## State -/

/-- The value of a spin box with the range of the thresholds. -/
abbrev Dbm := {value : ℤ // -100 ≤ value ∧ value ≤ -1}

/-- The value a spin box takes when it is set to `value`. -/
def bound (value : ℤ) : Dbm :=
  ⟨max (-100) (min value (-1)), by omega, by omega⟩

/-- A line of the log, without the time of day. -/
inductive LogLine where
  | message (text : QString)
  | bleDevice (name identifier : QString) (signalStrength : Int16)
  | proximityThresholds (near far : Dbm)
  deriving DecidableEq

structure MainWindow where
  nearThreshold : Dbm
  farThreshold : Dbm
  /-- the `Qt::UserRole` of the items -/
  deviceList : List QString
  logList : List LogLine

/-- The window when it has been constructed. -/
def MainWindow.constructed : MainWindow where
  nearThreshold := bound (-70)
  farThreshold := bound (-82)
  deviceList := []
  logList := []

inductive WindowEvent where
  /-- the user edits a spin box -/
  | editNear (value : ℤ)
  | editFar (value : ℤ)
  /-- signals of `BleDiscovery` and `Server` -/
  | deviceFound (identifier name : QString) (signalStrength : Int16)
  | deviceChanged (deviceId : QString) (connected : Bool)
  | logMessage (message : QString)

/-! ## Steps -/

namespace MainWindow

variable (w : MainWindow)

def appendLog (line : LogLine) : MainWindow :=
  { w with logList := (line :: w.logList).take 500 }

def setDevice (deviceId : QString) (connected : Bool) : MainWindow :=
  if deviceId ∈ w.deviceList then
    if connected then w else { w with deviceList := w.deviceList.erase deviceId }
  else if connected then { w with deviceList := w.deviceList ++ [deviceId] }
  else w

/-- `proximityChanged`, which its own `setValue` calls again. -/
def proximityChanged (w : MainWindow) : MainWindow :=
  let w :=
    if w.nearThreshold.1 < w.farThreshold.1 then
      proximityChanged { w with nearThreshold := bound w.farThreshold.1 }
    else w
  w.appendLog (.proximityThresholds w.nearThreshold w.farThreshold)
termination_by (w.farThreshold.1 - w.nearThreshold.1).toNat
decreasing_by
  have hrange := w.farThreshold.2
  simp only [bound]
  omega

/-- A spin box emits `valueChanged` if its value has changed. -/
def editNear (value : ℤ) : MainWindow :=
  if bound value = w.nearThreshold then w
  else proximityChanged { w with nearThreshold := bound value }

def editFar (value : ℤ) : MainWindow :=
  if bound value = w.farThreshold then w
  else proximityChanged { w with farThreshold := bound value }

/-- The handler of `BleDiscovery::deviceFound`. -/
def deviceFound (identifier name : QString) (signalStrength : Int16) : MainWindow :=
  (w.appendLog (.bleDevice name identifier signalStrength)).setDevice identifier
    (w.nearThreshold.1 ≤ signalStrength.toInt)

def react : WindowEvent → MainWindow
  | .editNear value => w.editNear value
  | .editFar value => w.editFar value
  | .deviceFound identifier name signalStrength => w.deviceFound identifier name signalStrength
  | .deviceChanged deviceId connected => w.setDevice deviceId connected
  | .logMessage message => w.appendLog (.message message)

end MainWindow

/-- The window, under any sequence of edits and signals. -/
def windowMachine : Machine MainWindow WindowEvent Unit where
  step w event := some (w.react event, ())

abbrev WindowEntry := Entry MainWindow WindowEvent Unit

theorem window_post {x : WindowEntry} (hdoes : windowMachine.Does x) :
    x.post = x.pre.react x.act := by
  simp only [Machine.Does, windowMachine, Option.some.injEq, Prod.mk.injEq] at hdoes
  exact hdoes.1.symm

/-! ## Fields -/

namespace MainWindow

variable {w : MainWindow} {deviceId : QString} {connected : Bool}

@[simp] theorem bound_coe (v : Dbm) : bound v.1 = v := by
  have hrange := v.2
  exact Subtype.ext (by simp only [bound]; omega)

@[simp] theorem setDevice_near : (w.setDevice deviceId connected).nearThreshold =
    w.nearThreshold := by
  unfold setDevice
  split_ifs <;> rfl

@[simp] theorem setDevice_far : (w.setDevice deviceId connected).farThreshold =
    w.farThreshold := by
  unfold setDevice
  split_ifs <;> rfl

/-- **The signal comes at most twice**, and raises the near threshold to the far one. -/
theorem proximityChanged_eq : w.proximityChanged =
    if w.nearThreshold.1 < w.farThreshold.1 then
      let line := LogLine.proximityThresholds w.farThreshold w.farThreshold
      (({ w with nearThreshold := w.farThreshold } : MainWindow).appendLog line).appendLog line
    else w.appendLog (.proximityThresholds w.nearThreshold w.farThreshold) := by
  rw [proximityChanged]
  by_cases h : w.nearThreshold.1 < w.farThreshold.1
  · rw [if_pos h, if_pos h, bound_coe, proximityChanged, if_neg (lt_irrefl _)]
    rfl
  · rw [if_neg h, if_neg h]

theorem proximityChanged_near :
    w.proximityChanged.nearThreshold = max w.nearThreshold w.farThreshold := by
  rw [proximityChanged_eq]
  split_ifs with h
  · have hle : w.nearThreshold ≤ w.farThreshold := le_of_lt h
    exact (max_eq_right hle).symm
  · have hle : w.farThreshold ≤ w.nearThreshold := not_lt.mp h
    exact (max_eq_left hle).symm

@[simp] theorem proximityChanged_far : w.proximityChanged.farThreshold = w.farThreshold := by
  rw [proximityChanged_eq]
  split_ifs <;> rfl

@[simp] theorem proximityChanged_deviceList :
    w.proximityChanged.deviceList = w.deviceList := by
  rw [proximityChanged_eq]
  split_ifs <;> rfl

theorem setDevice_logList : (w.setDevice deviceId connected).logList = w.logList := by
  unfold setDevice
  split_ifs <;> rfl

/-- The item of a device is there or not, and those of the others stay. -/
theorem mem_setDevice (hnodup : w.deviceList.Nodup) {id : QString} :
    id ∈ (w.setDevice deviceId connected).deviceList ↔
      if id = deviceId then connected = true else id ∈ w.deviceList := by
  by_cases hid : id = deviceId
  · subst hid
    cases connected <;> by_cases hlisted : id ∈ w.deviceList <;>
      simp [setDevice, hlisted, hnodup.mem_erase_iff]
  · cases connected <;> by_cases hlisted : deviceId ∈ w.deviceList <;>
      simp [setDevice, hlisted, hid, hnodup.mem_erase_iff]

theorem nodup_setDevice (hnodup : w.deviceList.Nodup) :
    (w.setDevice deviceId connected).deviceList.Nodup := by
  unfold setDevice
  split_ifs with hlisted hconnected hconnected
  · exact hnodup
  · exact hnodup.erase deviceId
  · rw [← List.concat_eq_append]
    exact hnodup.concat hlisted
  · exact hnodup

/-! ## What every step keeps -/

/-- The near threshold is not below the far one, no device has two items, and the log
has at most 500 lines. -/
structure Sound (w : MainWindow) : Prop where
  ordered : w.farThreshold ≤ w.nearThreshold
  nodup : w.deviceList.Nodup
  log : w.logList.length ≤ 500

theorem appendLog_log (w : MainWindow) (line : LogLine) :
    (w.appendLog line).logList.length ≤ 500 := by
  simp only [appendLog, List.length_take]
  omega

/-- `proximityChanged` restores the order of the thresholds. -/
theorem sound_proximityChanged (hnodup : w.deviceList.Nodup) : w.proximityChanged.Sound where
  ordered := by
    rw [proximityChanged_near, proximityChanged_far]
    exact le_max_right _ _
  nodup := by
    rw [proximityChanged_deviceList]
    exact hnodup
  log := by
    rw [proximityChanged_eq]
    split_ifs
    · exact appendLog_log _ _
    · exact appendLog_log _ _

theorem Sound.setDevice (h : w.Sound) : (w.setDevice deviceId connected).Sound where
  ordered := by
    rw [setDevice_near, setDevice_far]
    exact h.ordered
  nodup := nodup_setDevice h.nodup
  log := by
    rw [setDevice_logList]
    exact h.log

theorem Sound.appendLog (h : w.Sound) (line : LogLine) : (w.appendLog line).Sound :=
  ⟨h.ordered, h.nodup, appendLog_log w line⟩

theorem Sound.react (h : w.Sound) (event : WindowEvent) : (w.react event).Sound := by
  cases event with
  | editNear value =>
      simp only [MainWindow.react, editNear]
      split_ifs
      · exact h
      · exact sound_proximityChanged h.nodup
  | editFar value =>
      simp only [MainWindow.react, editFar]
      split_ifs
      · exact h
      · exact sound_proximityChanged h.nodup
  | deviceFound identifier name signalStrength => exact (h.appendLog _).setDevice
  | deviceChanged deviceId connected => exact h.setDevice
  | logMessage message => exact h.appendLog _

/-- **Whatever the user edits.** -/
theorem sound_run {tr : List WindowEntry} {w : MainWindow}
    (hrun : Run windowMachine constructed tr w) : w.Sound := by
  refine hrun.invariant ⟨by decide, List.nodup_nil, Nat.zero_le _⟩ ?_
  intro x hdoes h
  rw [window_post hdoes]
  exact h.react x.act

end MainWindow

/-! ## The devices that are listed -/

/-- The reading of a device that an event brings. -/
def reading (device : QString) : WindowEvent → Option ℤ
  | .deviceFound identifier _ signalStrength =>
      if identifier = device then some signalStrength.toInt else none
  | _ => none

def heard (device : QString) (tr : List WindowEntry) : List ℤ :=
  tr.filterMap fun x => reading device x.act

/-- The event has nothing to do with the pairing of the device. -/
def NotPaired (device : QString) (event : WindowEvent) : Prop :=
  ∀ connected, event ≠ .deviceChanged device connected

/-- A reading lists the device or not, and nothing else does. -/
theorem listed_react {device : QString} {w : MainWindow} {event : WindowEvent}
    (hnodup : w.deviceList.Nodup) (hpaired : NotPaired device event) :
    device ∈ (w.react event).deviceList ↔
      match reading device event with
      | some v => w.nearThreshold.1 ≤ v
      | none => device ∈ w.deviceList := by
  cases event with
  | editNear value =>
      simp only [MainWindow.react, MainWindow.editNear, reading]
      split_ifs <;> simp
  | editFar value =>
      simp only [MainWindow.react, MainWindow.editFar, reading]
      split_ifs <;> simp
  | deviceFound identifier name signalStrength =>
      have hlogged : (w.appendLog (.bleDevice name identifier signalStrength)).deviceList.Nodup :=
        hnodup
      simp only [MainWindow.react, MainWindow.deviceFound, reading]
      rw [MainWindow.mem_setDevice hlogged]
      by_cases hsame : identifier = device
      · simp [hsame]
      · simp [hsame, Ne.symm hsame, MainWindow.appendLog]
  | deviceChanged deviceId connected =>
      have hother : device ≠ deviceId := fun hsame => hpaired connected (by rw [hsame])
      simp only [MainWindow.react, reading]
      rw [MainWindow.mem_setDevice hnodup, if_neg hother]
  | logMessage message => rfl

/-- **A device is listed exactly if its last reading was at least the near threshold.** -/
theorem listed_iff {device : QString} {near : ℤ} {tr : List WindowEntry} {w : MainWindow}
    (hrun : Run windowMachine .constructed tr w) (hpaired : ∀ x ∈ tr, NotPaired device x.act)
    (hnear : ∀ x ∈ tr, reading device x.act ≠ none → x.pre.nearThreshold.1 = near) :
    device ∈ w.deviceList ↔ Ends (near ≤ ·) (heard device tr) := by
  refine Run.induction (P := fun tr w =>
      device ∈ w.deviceList ↔ Ends (near ≤ ·) (heard device tr)) hrun
    ((Along.of_forall_mem hpaired).and (Along.of_forall_mem hnear)) ?_ ?_
  · simp [heard, MainWindow.constructed]
  · rintro tr x hpre - ⟨hother, hat⟩ hdoes ih
    rw [window_post hdoes, listed_react (MainWindow.sound_run hpre).nodup hother]
    cases hreading : reading device x.act with
    | none => simpa [heard, hreading] using ih
    | some v =>
        have hheard : heard device (tr ++ [x]) = heard device tr ++ [v] := by
          simp [heard, hreading]
        rw [hheard, ends_snoc, hat (by simp [hreading])]

end OpenBioUnlock.Desktop

import OpenBioUnlock.Desktop.MainWindow
import OpenBioUnlock.Mobile.Proximity

/-!
# Proximity on the desktop and on the phone

The desktop lists a device while it is near, the phone reports it nearby.  Both have a
near threshold and a far one, and the desktop keeps them in order.

The phone has hysteresis, the desktop has none.  `proximity_agree_iff` compares them
on the same readings of a device, delivered in whatever batches and among whatever
readings of other devices: they differ exactly when the last reading lies between the
thresholds, and the device had come near and not gone far before.
-/

namespace OpenBioUnlock.Interop

open Desktop Mobile Runs

/-- The last event about the device says nearby. -/
def ReportedNearby (device : DeviceIdentifier) (phone : List BleEntry) : Prop :=
  (flagsOf device (emitted phone)).getLast? = some true

/-- The phone and the desktop have the same readings of a device, under the same
thresholds, and the device is not one that is paired. -/
structure HeardAlike (device : QString) (tr : List WindowEntry) (w : MainWindow)
    (phone : List BleEntry) : Prop where
  unpaired : ∀ x ∈ tr, NotPaired device x.act
  fixed : ∀ x ∈ tr, reading device x.act ≠ none →
    x.pre.nearThreshold = w.nearThreshold ∧ x.pre.farThreshold = w.farThreshold
  thresholds : ∀ x ∈ afterLast forgets phone,
    DeliversWith ⟨w.nearThreshold.1, w.farThreshold.1⟩ x
  readings : readingsOf device (emitted phone) = heard device tr

/-- The desktop and the phone agree on the device. -/
def ProximityAgrees (device : QString) (w : MainWindow) (phone : List BleEntry) : Prop :=
  device ∈ w.deviceList ↔ ReportedNearby device phone

variable {device : QString} {tr : List WindowEntry} {w : MainWindow}
variable {phone : List BleEntry} {s : BleService}

/-- **The phone reports what hysteresis makes of the readings.** -/
theorem reportedNearby_iff {t : Thresholds} (hle : t.far ≤ t.near)
    (hphone : Run bleMachine .constructed phone s)
    (hwith : ∀ x ∈ afterLast forgets phone, DeliversWith t x) :
    ReportedNearby device phone ↔ HeldOn t.near t.far (readingsOf device (emitted phone)) := by
  have hlast := getLast_positions t.near t.far (readingsOf device (emitted phone))
  rw [← position_iff hle, ← hlast, ← (tracks hphone hwith).flagged.flagsOf_eq, ReportedNearby]
  cases (flagsOf device (emitted phone)).getLast? with
  | none => simp
  | some flag => simp

/-- **The two agree exactly unless** the last reading lies between the thresholds and the
device was near. -/
theorem proximity_agree_iff (hwindow : Run windowMachine .constructed tr w) :
    w.farThreshold ≤ w.nearThreshold ∧
      ∀ device phone s, Run bleMachine .constructed phone s → HeardAlike device tr w phone →
        (ProximityAgrees device w phone ↔
          ¬ (Ends (fun v => w.farThreshold.1 ≤ v ∧ v < w.nearThreshold.1) (heard device tr) ∧
            HeldOn w.nearThreshold.1 w.farThreshold.1 (heard device tr))) := by
  have hle := (MainWindow.sound_run hwindow).ordered
  refine ⟨hle, fun device phone s hphone halike => ?_⟩
  have hlisted := listed_iff hwindow halike.unpaired
    fun x hx hreading => congrArg Subtype.val (halike.fixed x hx hreading).1
  rw [ProximityAgrees, hlisted, reportedNearby_iff hle hphone halike.thresholds, halike.readings]
  exact ends_atLeast_iff

/-! ## A reading between the thresholds -/

/-- A device comes near, and is then heard at -75. -/
def walkAway : List WindowEvent :=
  [.deviceFound [65] [] (-60), .deviceFound [65] [] (-75)]

/-- The same on the phone. -/
def walkAwayPhone : List BleEvent :=
  [.call 0 (.startProximityScan defaultThresholds), .resume 0, .plugin 0, .resume 0,
    .results 0 [⟨[65], -60, [openBioUnlockService]⟩, ⟨[65], -75, [openBioUnlockService]⟩]]

theorem walkAway_heardAlike :
    HeardAlike [65] (windowMachine.trace .constructed walkAway)
      (windowMachine.final .constructed walkAway)
      (bleMachine.trace .constructed walkAwayPhone) where
  unpaired x hx connected hact := by
    have hmem := Machine.act_mem hx
    simp [hact, walkAway] at hmem
  fixed := by decide
  thresholds x hx := deliversWith (t := defaultThresholds) (Run.trace _ _ _)
    (calledWith_of_acts (by simp [walkAwayPhone])) x (mem_of_mem_afterLast hx)
  readings := by decide

theorem proximity_agree_iff_walkAway :
    ProximityAgrees [65] (windowMachine.final .constructed walkAway)
        (bleMachine.trace .constructed walkAwayPhone) ↔
      ¬ (Ends (fun v => -82 ≤ v ∧ v < -70) [-60, -75] ∧ HeldOn (-70) (-82) [(-60 : ℤ), -75]) :=
  (proximity_agree_iff (Run.trace windowMachine .constructed walkAway)).2 _ _ _ (Run.trace _ _ _)
    walkAway_heardAlike

/-- The desktop drops the device, and the phone goes on reporting it. -/
theorem proximity_agree_fails :
    (windowMachine.final .constructed walkAway).deviceList = [] ∧
      ReportedNearby [65] (bleMachine.trace .constructed walkAwayPhone) ∧
      ¬ ∀ device tr w phone s, Run windowMachine .constructed tr w →
        Run bleMachine .constructed phone s → HeardAlike device tr w phone →
          ProximityAgrees device w phone := by
  have hlist : (windowMachine.final .constructed walkAway).deviceList = [] := by decide
  have hreported : ReportedNearby [65] (bleMachine.trace .constructed walkAwayPhone) := by
    unfold ReportedNearby
    decide
  refine ⟨hlist, hreported, fun h => ?_⟩
  have hagrees := h _ _ _ _ _ (Run.trace _ _ _) (Run.trace _ _ _) walkAway_heardAlike
  have hmem := hagrees.mpr hreported
  rw [hlist] at hmem
  cases hmem

end OpenBioUnlock.Interop

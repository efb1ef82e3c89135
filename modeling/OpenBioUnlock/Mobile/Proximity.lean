import OpenBioUnlock.Machine.Hysteresis
import OpenBioUnlock.Machine.OneTime
import OpenBioUnlock.Mobile.BleService

/-!
# Proximity of a device

What the proximity events say.  The listener keeps one switch with hysteresis for each
device: it turns on at a reading of at least `near`, and off at one below `far`.

`Hysteretic` is the law, over the events since `stop` last cleared the map: there is one
event for each advertised reading, its flag is on exactly if a reading of that device
turned it on and none since turned it off, and the flags of a device depend on the
readings of that device alone.  `nearby_hysteretic` proves it of every run of the
service, however the calls overlap and whatever is delivered to which listener.
-/

namespace OpenBioUnlock.Mobile

open Runs

/-! ## Events by device -/

def readingsOf (device : DeviceIdentifier) (events : List ProximityEvent) : List ℤ :=
  (events.filter fun e => e.device = device).map (·.rssi)

def flagsOf (device : DeviceIdentifier) (events : List ProximityEvent) : List Bool :=
  (events.filter fun e => e.device = device).map (·.nearby)

variable {device : DeviceIdentifier} {events : List ProximityEvent} {e : ProximityEvent}

theorem readingsOf_snoc : readingsOf device (events ++ [e]) =
    if e.device = device then readingsOf device events ++ [e.rssi]
    else readingsOf device events := by
  by_cases h : e.device = device <;> simp [readingsOf, h]

theorem flagsOf_snoc : flagsOf device (events ++ [e]) =
    if e.device = device then flagsOf device events ++ [e.nearby] else flagsOf device events := by
  by_cases h : e.device = device <;> simp [flagsOf, h]

/-! ## The law -/

/-- The step with which `stop` clears the map. -/
def forgets (x : BleEntry) : Bool :=
  match x.act with
  | .resume id =>
      match x.pre.tasks id with
      | some ⟨.stop, .cancelling⟩ => true
      | _ => false
  | _ => false

/-- The events since then. -/
def emitted (tr : List BleEntry) : List ProximityEvent :=
  (afterLast forgets tr).flatMap (·.out)

/-- The device and the value of each advertised reading. -/
def advertised (batch : List ScanResult) : List (DeviceIdentifier × ℤ) :=
  (batch.filter ScanResult.advertises).map fun r => (r.remoteId, r.rssi)

/-- **The law** of the proximity events. -/
structure Hysteretic (t : Thresholds) (tr : List BleEntry) : Prop where
  /-- one event for each advertised reading -/
  complete : ∀ x ∈ tr, ∀ k batch, x.act = .results k batch →
    x.out.map (fun e => (e.device, e.rssi)) = advertised batch
  /-- the flag is on if the device was near, and not far since -/
  flag : ∀ before e after, emitted tr = before ++ e :: after →
    (e.nearby = true ↔ HeldOn t.near t.far (readingsOf e.device (before ++ [e])))
  /-- a reading between the thresholds changes nothing -/
  band : ∀ before e after, emitted tr = before ++ e :: after →
    t.far ≤ e.rssi → e.rssi < t.near →
      e.nearby = (flagsOf e.device before).getLast?.getD false
  /-- the flags of a device are those of its own readings -/
  alone : ∀ device, flagsOf device (emitted tr) =
    positions t.near t.far (readingsOf device (emitted tr))

/-! ## What the listener keeps -/

/-- Every flag is the position of the switch of its device. -/
def Flagged (t : Thresholds) (events : List ProximityEvent) : Prop :=
  ∀ before e after, events = before ++ e :: after →
    e.nearby = position t.near t.far (readingsOf e.device (before ++ [e]))

variable {t : Thresholds} {nearby : NearbyMap}

theorem Flagged.nil : Flagged t [] := by
  intro before e after h
  simp at h

theorem Flagged.snoc (h : Flagged t events)
    (he : e.nearby = position t.near t.far (readingsOf e.device (events ++ [e]))) :
    Flagged t (events ++ [e]) := by
  intro before e' after hevents
  rcases snoc_split hevents with ⟨-, rfl, rfl⟩ | ⟨rest, -, rfl⟩
  · exact he
  · exact h before e' rest rfl

theorem Flagged.of_append {more : List ProximityEvent} (h : Flagged t (events ++ more)) :
    Flagged t events :=
  fun before e after hevents => h before e (after ++ more) (by simp [hevents])

/-- The flags of a device are the positions of its switch. -/
theorem Flagged.flagsOf_eq (h : Flagged t events) (device : DeviceIdentifier) :
    flagsOf device events = positions t.near t.far (readingsOf device events) := by
  induction events using List.reverseRecOn with
  | nil => rfl
  | append_singleton events e ih =>
      have he := h events e [] rfl
      rw [flagsOf_snoc, readingsOf_snoc, ih h.of_append]
      split_ifs with hdevice
      · subst hdevice
        rw [readingsOf_snoc, if_pos rfl] at he
        rw [positions_snoc, he]
      · rfl

/-- The map has the position of every switch. -/
structure Tracks (t : Thresholds) (nearby : NearbyMap) (events : List ProximityEvent) : Prop where
  shown : ∀ device,
    (nearby device).getD false = position t.near t.far (readingsOf device events)
  flagged : Flagged t events

theorem Tracks.nil : Tracks t (fun _ => none) [] :=
  ⟨fun _ => rfl, .nil⟩

/-- An advertised result is a reading of the switch of its device. -/
theorem onResult_advertised {result : ScanResult} (h : result.advertises = true) :
    onResult t nearby result =
      let now := hysteresis t.near t.far ((nearby result.remoteId).getD false) result.rssi
      (Function.update nearby result.remoteId (some now),
        [⟨result.remoteId, result.rssi, now⟩]) := by
  unfold onResult
  rw [if_pos h]
  rfl

theorem onResult_other {result : ScanResult} (h : ¬ result.advertises = true) :
    onResult t nearby result = (nearby, []) :=
  if_neg h

/-- One turn of the loop keeps it so. -/
theorem Tracks.onResult (h : Tracks t nearby events) (result : ScanResult) :
    Tracks t (onResult t nearby result).1 (events ++ (onResult t nearby result).2) := by
  by_cases hadvertised : result.advertises = true
  · rw [onResult_advertised hadvertised, h.shown]
    refine ⟨fun device => ?_, h.flagged.snoc ?_⟩
    · rw [readingsOf_snoc]
      by_cases hdevice : device = result.remoteId
      · subst hdevice
        simp
      · simpa [hdevice, Ne.symm hdevice] using h.shown device
    · rw [readingsOf_snoc, if_pos rfl, position_snoc]
  · rw [onResult_other hadvertised, List.append_nil]
    exact h

theorem Tracks.onResults (h : Tracks t nearby events) (batch : List ScanResult) :
    Tracks t (onResults t nearby batch).1 (events ++ (onResults t nearby batch).2) := by
  induction batch generalizing nearby events with
  | nil => simpa [Mobile.onResults] using h
  | cons result batch ih =>
      have hrest := ih (h.onResult result)
      rw [List.append_assoc] at hrest
      exact hrest

theorem onResults_advertised (t : Thresholds) (nearby : NearbyMap) (batch : List ScanResult) :
    (onResults t nearby batch).2.map (fun e => (e.device, e.rssi)) = advertised batch := by
  induction batch generalizing nearby with
  | nil => rfl
  | cons result batch ih =>
      by_cases hadvertised : result.advertises = true
      · have hcons : advertised (result :: batch) =
            (result.remoteId, result.rssi) :: advertised batch := by
          rw [advertised, List.filter_cons_of_pos hadvertised]
          rfl
        simp only [onResults, onResult_advertised hadvertised, List.map_append, ih, hcons]
        rfl
      · have hcons : advertised (result :: batch) = advertised batch := by
          rw [advertised, List.filter_cons_of_neg hadvertised]
          rfl
        simp only [onResults, onResult_other hadvertised, List.map_append, ih, hcons]
        rfl

/-! ## The invariant -/

@[simp] theorem emitted_nil : emitted [] = [] := rfl

theorem emitted_snoc (tr : List BleEntry) (x : BleEntry) :
    emitted (tr ++ [x]) = if forgets x then [] else emitted tr ++ x.out := by
  unfold emitted
  rw [afterLast_snoc]
  split_ifs <;> simp

/-- The listener that a batch reaches has these thresholds. -/
def DeliversWith (t : Thresholds) (x : BleEntry) : Prop :=
  ∀ k batch, x.act = .results k batch → x.pre.live k = some t

variable {tr : List BleEntry} {s : BleService} {x : BleEntry} {id : ℕ}

/-- A step that delivers nothing and clears nothing keeps the map. -/
theorem nearby_step (hdoes : bleMachine.Does x) (hkeeps : forgets x = false) :
    (∃ k batch, x.act = .results k batch) ∨ x.post.nearby = x.pre.nearby ∧ x.out = [] := by
  have hstep := ble_step hdoes
  obtain ⟨pre, act, out, post⟩ := x
  simp only at hstep
  cases hstep with
  | results => exact Or.inl ⟨_, _, rfl⟩
  | stopReturns htask => simp [forgets, htask] at hkeeps
  | start | stopCancels =>
      exact Or.inr ⟨by simp [BleService.goto], rfl⟩
  | stop | stopsScan | startsScan | startCancelled | listens | startReturns =>
      exact Or.inr ⟨rfl, rfl⟩

theorem Tracks.step (hdoes : bleMachine.Does x)
    (hwith : forgets x = false → DeliversWith t x)
    (h : forgets x = false → Tracks t x.pre.nearby (emitted tr)) :
    Tracks t x.post.nearby (emitted (tr ++ [x])) := by
  have hstep := ble_step hdoes
  obtain ⟨pre, act, out, post⟩ := x
  rw [emitted_snoc]
  cases hforgets : forgets ⟨pre, act, out, post⟩ with
  | true =>
      simp only at hstep
      cases hstep with
      | stopReturns htask => exact .nil
      | startCancelled htask | listens htask | startReturns htask | stopCancels htask =>
          simp [forgets, htask] at hforgets
      | _ => simp [forgets] at hforgets
  | false =>
      rcases nearby_step hdoes hforgets with ⟨k, batch, rfl⟩ | ⟨hsame, rfl⟩
      · have hlive := hwith hforgets k batch rfl
        simp only at hstep hlive
        cases hstep with
        | results hlive' =>
            rw [hlive] at hlive'
            cases hlive'
            exact (h hforgets).onResults batch
      · rw [if_neg (by simp), List.append_nil, hsame]
        exact h hforgets

/-- **In every run** whose batches since the last `stop` reach listeners with these
thresholds, the map is right. -/
theorem tracks (hrun : Run bleMachine .constructed tr s)
    (hwith : ∀ x ∈ afterLast forgets tr, DeliversWith t x) :
    Tracks t s.nearby (emitted tr) := by
  revert hwith
  refine Run.history (P := fun tr s => (∀ x ∈ afterLast forgets tr, DeliversWith t x) →
    Tracks t s.nearby (emitted tr)) hrun (fun _ => .nil) ?_
  intro tr x _ hdoes ih hwith
  rw [afterLast_snoc] at hwith
  refine .step hdoes (fun hforgets => ?_) fun hforgets => ih fun y hy => ?_
  · exact hwith x (by simp [hforgets])
  · exact hwith y (by simp [hforgets, hy])

/-! ## The thresholds of the listeners -/

/-- The calls of `startProximityScan` have these thresholds. -/
def CalledWith (t : Thresholds) (x : BleEntry) : Prop :=
  ∀ id t', x.act = .call id (.startProximityScan t') → t' = t

/-- All listeners have the same thresholds, and will have. -/
structure Configured (t : Thresholds) (s : BleService) : Prop where
  live : ∀ k t', s.live k = some t' → t' = t
  tasks : ∀ id t' phase, s.tasks id = some ⟨.startProximityScan t', phase⟩ → t' = t

/-- A task that goes on keeps its call. -/
theorem tasks_goto {task : ScanTask} (h : ∀ id t' phase,
      s.tasks id = some ⟨.startProximityScan t', phase⟩ → t' = t)
    (htask : ∀ t' phase, task = ⟨.startProximityScan t', phase⟩ → t' = t) :
    ∀ id' t' phase, (s.goto id task).tasks id' = some ⟨.startProximityScan t', phase⟩ →
      t' = t := by
  intro id' t' phase hid
  by_cases hsame : id' = id
  · subst hsame
    simp only [BleService.goto, Function.update_self, Option.some.injEq] at hid
    exact htask t' phase hid
  · simp only [BleService.goto, Function.update_of_ne hsame] at hid
    exact h id' t' phase hid

theorem tasks_finish (h : ∀ id t' phase,
      s.tasks id = some ⟨.startProximityScan t', phase⟩ → t' = t) :
    ∀ id' t' phase, (s.finish id).tasks id' = some ⟨.startProximityScan t', phase⟩ →
      t' = t := by
  intro id' t' phase hid
  by_cases hsame : id' = id
  · subst hsame
    simp [BleService.finish] at hid
  · simp only [BleService.finish, Function.update_of_ne hsame] at hid
    exact h id' t' phase hid

/-- A task has the thresholds of its call at every phase. -/
theorem tasks_same {call : ScanCall} {phase phase' : ScanPhase} (h : ∀ id t' phase,
      s.tasks id = some ⟨.startProximityScan t', phase⟩ → t' = t)
    (htask : s.tasks id = some ⟨call, phase⟩) :
    ∀ t' phase'', (⟨call, phase'⟩ : ScanTask) = ⟨.startProximityScan t', phase''⟩ → t' = t := by
  rintro t' phase'' hsame
  cases hsame
  exact h _ _ _ htask

theorem Configured.step (hdoes : bleMachine.Does x) (hcalled : CalledWith t x)
    (h : Configured t x.pre) : Configured t x.post := by
  have hstep := ble_step hdoes
  obtain ⟨pre, act, out, post⟩ := x
  simp only at hstep h
  cases hstep with
  | start hfree =>
      refine ⟨fun k t' hlive => ?_, tasks_goto (by simpa using h.tasks) ?_⟩
      · exact h.live k t' (BleService.cancelSubscription_live.mp hlive).1
      · rintro t' phase htask
        cases htask
        exact hcalled _ _ rfl
  | stop hfree => exact ⟨h.live, tasks_goto h.tasks (by simp)⟩
  | stopsScan htask | startsScan htask | startCancelled htask =>
      exact ⟨h.live, tasks_goto h.tasks (tasks_same h.tasks htask)⟩
  | listens htask =>
      refine ⟨fun k t' hlive => ?_, tasks_goto h.tasks (tasks_same h.tasks htask)⟩
      rcases BleService.listen_live.mp hlive with ⟨-, rfl⟩ | ⟨-, hold⟩
      · exact h.tasks _ _ _ htask
      · exact h.live k t' hold
  | startReturns htask | stopReturns htask => exact ⟨h.live, tasks_finish h.tasks⟩
  | stopCancels htask =>
      refine ⟨fun k t' hlive => ?_, tasks_goto (by simpa using h.tasks) (by simp)⟩
      exact h.live k t' (BleService.cancelSubscription_live.mp hlive).1
  | results hlive => exact ⟨h.live, h.tasks⟩

/-- Where all calls have the same thresholds, so have all listeners. -/
theorem deliversWith (hrun : Run bleMachine .constructed tr s)
    (hcalled : ∀ x ∈ tr, CalledWith t x) : ∀ x ∈ tr, DeliversWith t x := by
  intro x hx k batch hact
  obtain ⟨before, after, rfl⟩ := List.append_of_mem hx
  obtain ⟨hbefore, hdoes⟩ := hrun.split
  have hconfigured : Configured t x.pre :=
    Run.induction (P := fun _ s => Configured t s) hbefore
      (Along.of_forall_mem fun y hy => hcalled y (by simp [hy]))
      ⟨by simp [BleService.constructed], by simp [BleService.constructed]⟩
      fun _ y _ _ hy hdoes h => h.step hdoes hy
  obtain ⟨pre, act, out, post⟩ := x
  have hstep := ble_step hdoes
  simp only at hstep hact hconfigured ⊢
  subst hact
  cases hstep with
  | results hlive => rw [hlive, hconfigured.live k _ hlive]

theorem calledWith_of_acts {acts : List BleEvent}
    (h : ∀ id t', .call id (.startProximityScan t') ∈ acts → t' = t) :
    ∀ x ∈ bleMachine.trace s acts, CalledWith t x := by
  intro x hx id t' hact
  have hmem := Machine.act_mem hx
  rw [hact] at hmem
  exact h id t' hmem

/-! ## The result -/

/-- **The events of every run obey the law of hysteresis.** -/
theorem nearby_hysteretic (hle : t.far ≤ t.near) (hrun : Run bleMachine .constructed tr s)
    (hwith : ∀ x ∈ afterLast forgets tr, DeliversWith t x) : Hysteretic t tr := by
  have hflagged := (tracks hrun hwith).flagged
  refine ⟨?_, ?_, ?_, hflagged.flagsOf_eq⟩
  · rintro ⟨pre, act, out, post⟩ hx k batch rfl
    have hstep := ble_step (hrun.does_of_mem hx)
    simp only at hstep
    cases hstep with
    | results _ => exact onResults_advertised _ _ _
  · intro before e after hsplit
    rw [hflagged before e after hsplit]
    exact position_iff hle
  · intro before e after hsplit hfar hnear
    have hbefore : Flagged t before := Flagged.of_append (hsplit ▸ hflagged)
    rw [hflagged before e after hsplit, hbefore.flagsOf_eq, getLast_positions, readingsOf_snoc,
      if_pos rfl, position_snoc, hysteresis_band hfar hnear]

/-- Two devices, and readings at the thresholds and between them. -/
def twoDevices : List BleEvent :=
  let reading (remoteId : DeviceIdentifier) (rssi : ℤ) : ScanResult :=
    ⟨remoteId, rssi, [openBioUnlockService]⟩
  [.call 0 (.startProximityScan defaultThresholds), .resume 0, .plugin 0, .resume 0,
    .results 0 [reading [65] (-70), reading [66] (-82)],
    .results 0 [reading [65] (-82), reading [65] (-83), reading [66] (-69)]]

theorem nearby_hysteretic_twoDevices :
    (emitted (bleMachine.trace .constructed twoDevices)).map (fun e => (e.device, e.nearby)) =
        [([65], true), ([66], false), ([65], true), ([65], false), ([66], true)] ∧
      Hysteretic defaultThresholds (bleMachine.trace .constructed twoDevices) := by
  refine ⟨by decide, nearby_hysteretic (by decide) (Run.trace _ _ _) ?_⟩
  exact fun x hx => deliversWith (Run.trace _ _ _) (calledWith_of_acts (by simp [twoDevices])) x
    (mem_of_mem_afterLast hx)

end OpenBioUnlock.Mobile

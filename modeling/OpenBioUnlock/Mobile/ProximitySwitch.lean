import OpenBioUnlock.Mobile.ScanCycle

/-!
# The proximity switch

`toggleProximity` and `dispose` of the home page, over the calls they make of the BLE
service.

Turning the switch on listens to `ble.devices` and starts a scan; turning it off cancels the
listener, and stops the scan when the `cancel` has completed.  The stream is a synchronous
broadcast stream: what the service adds reaches the listeners there are at that moment.

* `shown_while_on`: whatever the service is doing, each of its events is shown once while the
  switch is on, and never while it is off.
* `switch_at_rest`: if the switch is used only while nothing is under way, the phone scans
  exactly while it is on, and a page that has been left has nothing running.
-/

namespace OpenBioUnlock.Mobile

open Runs

/-! ## State -/

structure HomePage where
  ble : BleService
  /-- the switch -/
  proximity : Bool
  proximitySubscription : Option ℕ
  /-- the listeners of `ble.devices`, in the order in which they came -/
  listeners : List ℕ
  /-- how many there have been -/
  listened : ℕ
  /-- the calls of `toggleProximity` that await the `cancel` -/
  cancelling : List ℕ
  mounted : Bool
  /-- the call of `stop` that `ble.dispose` awaits -/
  disposing : Option ℕ
  /-- `_devices` is closed -/
  closed : Bool

/-- A page that has just been built. -/
def HomePage.built : HomePage where
  ble := .constructed
  proximity := false
  proximitySubscription := none
  listeners := []
  listened := 0
  cancelling := []
  mounted := true
  disposing := none
  closed := false

inductive PageEvent where
  /-- the user uses the switch -/
  | toggle (id : ℕ) (value : Bool)
  /-- the `cancel` has completed, and `toggleProximity` goes on -/
  | goesOn (id : ℕ)
  | dispose (id : ℕ)
  /-- `stop` has returned to `ble.dispose` -/
  | close
  /-- what the plugin does, and what the event loop does -/
  | plugin (id : ℕ)
  | resume (id : ℕ)
  | results (k : ℕ) (results : List ScanResult)

inductive PageEffect where
  | setStatus (status : DString)
  /-- `_devices.add` throws, as the stream is closed -/
  | badState
  deriving DecidableEq

/-! ## Steps -/

/-- The status that an event is shown as; `platformName` is that of its device. -/
def statusOf (platformName : DeviceIdentifier → DString) (event : ProximityEvent) : DString :=
  (if platformName event.device = [] then event.device else platformName event.device) ++
    ofString ": " ++ ofString (if event.nearby then "nearby" else "away")

/-- The listener of the service with the stream closed: the first event throws, and the
rest of the batch is not looked at. -/
def onResultsClosed (t : Thresholds) : NearbyMap → List ScanResult → NearbyMap × Bool
  | nearby, [] => (nearby, false)
  | nearby, result :: results =>
      if result.advertises then ((onResult t nearby result).1, true)
      else onResultsClosed t nearby results

namespace HomePage

variable (platformName : DeviceIdentifier → DString) (s : HomePage)

/-- The listeners without that of `proximitySubscription`. -/
def otherListeners : List ℕ :=
  match s.proximitySubscription with
  | none => s.listeners
  | some k => s.listeners.erase k

/-- `proximitySubscription?.cancel()`. -/
def cancelSubscription : HomePage :=
  { s with listeners := s.otherListeners }

/-- `ble.devices.listen(...)`. -/
def listen : HomePage :=
  { s with
    proximitySubscription := some s.listened
    listeners := s.listeners ++ [s.listened]
    listened := s.listened + 1 }

/-- A call of the service, which has to be a new one. -/
def calls (id : ℕ) (call : ScanCall) : Option HomePage :=
  match s.ble.tasks id with
  | none => some { s with ble := s.ble.call id call }
  | some _ => none

/-- `setState(() => proximity = value)`. -/
def turn (value : Bool) : HomePage :=
  { s with proximity := value }

/-- `toggleProximity`, up to its first await. -/
def toggle (id : ℕ) (value : Bool) : Option HomePage :=
  if s.mounted then
    if value then (s.turn true).listen.calls id (.startProximityScan defaultThresholds)
    else
      let s := (s.turn false).cancelSubscription
      some { s with cancelling := id :: s.cancelling }
  else none

/-- `toggleProximity` goes on to `ble.stop()`. -/
def goesOn (id : ℕ) : Option HomePage :=
  if id ∈ s.cancelling then ({ s with cancelling := s.cancelling.erase id } : HomePage).calls id .stop
  else none

/-- `dispose`, up to the first await of `ble.dispose`. -/
def dispose (id : ℕ) : Option HomePage :=
  if s.mounted then
    let s := s.cancelSubscription
    ({ s with mounted := false, disposing := some id } : HomePage).calls id .stop
  else none

/-- `_devices.close()`, when `stop` has returned. -/
def close : Option HomePage :=
  match s.disposing with
  | some id =>
      if (s.ble.tasks id).isNone && !s.closed then
        some { s with listeners := [], closed := true }
      else none
  | none => none

/-- What the listeners do with the events of a batch. -/
def shows (events : List ProximityEvent) : List PageEffect :=
  events.flatMap fun event => s.listeners.flatMap fun _ =>
    if s.mounted then [.setStatus (statusOf platformName event)] else []

/-- A batch reaches the listener of a scan. -/
def deliver (k : ℕ) (results : List ScanResult) : Option (HomePage × List PageEffect) :=
  (s.ble.live k).map fun t =>
    if s.closed then
      let (nearby, throws) := onResultsClosed t s.ble.nearby results
      ({ s with ble := { s.ble with nearby } }, if throws then [.badState] else [])
    else
      let (nearby, events) := onResults t s.ble.nearby results
      ({ s with ble := { s.ble with nearby } }, s.shows platformName events)

end HomePage

/-- The home page, with the steps of the service in any order. -/
def pageMachine (platformName : DeviceIdentifier → DString) :
    Machine HomePage PageEvent (List PageEffect) where
  step s
    | .toggle id value => (s.toggle id value).map fun s => (s, [])
    | .goesOn id => (s.goesOn id).map fun s => (s, [])
    | .dispose id => (s.dispose id).map fun s => (s, [])
    | .close => s.close.map fun s => (s, [])
    | .plugin id => ((s.ble.tasks id).bind (s.ble.plugin id)).map fun ble => ({ s with ble }, [])
    | .resume id => ((s.ble.tasks id).bind (s.ble.resume id)).map fun ble => ({ s with ble }, [])
    | .results k results => s.deliver platformName k results

abbrev PageEntry := Entry HomePage PageEvent (List PageEffect)

/-! ## What a step does -/

/-- The steps from `s`. -/
inductive PageStep (platformName : DeviceIdentifier → DString) (s : HomePage) :
    PageEvent → List PageEffect → HomePage → Prop
  | on {id : ℕ} (hmounted : s.mounted = true) (hfree : s.ble.tasks id = none) :
      PageStep platformName s (.toggle id true) []
        { s with
          ble := s.ble.call id (.startProximityScan defaultThresholds)
          proximity := true
          proximitySubscription := some s.listened
          listeners := s.listeners ++ [s.listened]
          listened := s.listened + 1 }
  | off {id : ℕ} (hmounted : s.mounted = true) :
      PageStep platformName s (.toggle id false) []
        { s with
          proximity := false
          listeners := s.otherListeners
          cancelling := id :: s.cancelling }
  | goesOn {id : ℕ} (hwaits : id ∈ s.cancelling) (hfree : s.ble.tasks id = none) :
      PageStep platformName s (.goesOn id) []
        { s with ble := s.ble.call id .stop, cancelling := s.cancelling.erase id }
  | dispose {id : ℕ} (hmounted : s.mounted = true) (hfree : s.ble.tasks id = none) :
      PageStep platformName s (.dispose id) []
        { s with
          ble := s.ble.call id .stop
          listeners := s.otherListeners
          mounted := false
          disposing := some id }
  | close {id : ℕ} (hdisposing : s.disposing = some id) (hdone : s.ble.tasks id = none) :
      PageStep platformName s .close [] { s with listeners := [], closed := true }
  | plugin {id : ℕ} {ble : BleService} (hdoes : bleMachine.Does ⟨s.ble, .plugin id, [], ble⟩) :
      PageStep platformName s (.plugin id) [] { s with ble }
  | resume {id : ℕ} {ble : BleService} (hdoes : bleMachine.Does ⟨s.ble, .resume id, [], ble⟩) :
      PageStep platformName s (.resume id) [] { s with ble }
  | results {k : ℕ} {t : Thresholds} {batch : List ScanResult} (hlive : s.ble.live k = some t)
      (hopen : s.closed = false) :
      PageStep platformName s (.results k batch)
        (s.shows platformName (onResults t s.ble.nearby batch).2)
        { s with ble := { s.ble with nearby := (onResults t s.ble.nearby batch).1 } }
  | resultsClosed {k : ℕ} {t : Thresholds} {batch : List ScanResult}
      (hlive : s.ble.live k = some t) (hclosed : s.closed = true) :
      PageStep platformName s (.results k batch)
        (if (onResultsClosed t s.ble.nearby batch).2 then [.badState] else [])
        { s with ble := { s.ble with nearby := (onResultsClosed t s.ble.nearby batch).1 } }

section Steps

variable {platformName : DeviceIdentifier → DString} {s s' : HomePage} {x : PageEntry} {id : ℕ}

theorem calls_eq_some {call : ScanCall} (h : s.calls id call = some s') :
    s.ble.tasks id = none ∧ s' = { s with ble := s.ble.call id call } := by
  unfold HomePage.calls at h
  split at h
  · rename_i hfree
    cases h
    exact ⟨hfree, rfl⟩
  · cases h

/-- **Every step is one of these.** -/
theorem page_step (hdoes : (pageMachine platformName).Does x) :
    PageStep platformName x.pre x.act x.out x.post := by
  obtain ⟨s, act, out, s'⟩ := x
  cases act with
  | toggle id value =>
      simp only [Machine.Does, pageMachine, Option.map_eq_some_iff] at hdoes
      obtain ⟨_, htoggle, hpost⟩ := hdoes
      cases hpost
      unfold HomePage.toggle at htoggle
      split_ifs at htoggle with hmounted hvalue
      · obtain ⟨hfree, rfl⟩ := calls_eq_some htoggle
        subst hvalue
        exact .on hmounted hfree
      · rw [Bool.not_eq_true] at hvalue
        subst hvalue
        cases htoggle
        exact .off hmounted
  | goesOn id =>
      simp only [Machine.Does, pageMachine, Option.map_eq_some_iff] at hdoes
      obtain ⟨_, hgoes, hpost⟩ := hdoes
      cases hpost
      unfold HomePage.goesOn at hgoes
      split_ifs at hgoes with hwaits
      obtain ⟨hfree, rfl⟩ := calls_eq_some hgoes
      exact .goesOn hwaits hfree
  | dispose id =>
      simp only [Machine.Does, pageMachine, Option.map_eq_some_iff] at hdoes
      obtain ⟨_, hdispose, hpost⟩ := hdoes
      cases hpost
      unfold HomePage.dispose at hdispose
      split_ifs at hdispose with hmounted
      obtain ⟨hfree, rfl⟩ := calls_eq_some hdispose
      exact .dispose hmounted hfree
  | close =>
      simp only [Machine.Does, pageMachine, Option.map_eq_some_iff] at hdoes
      obtain ⟨_, hclose, hpost⟩ := hdoes
      cases hpost
      unfold HomePage.close at hclose
      split at hclose
      · rename_i id hdisposing
        split_ifs at hclose with hdone
        cases hclose
        rw [Bool.and_eq_true, Option.isNone_iff_eq_none] at hdone
        exact .close hdisposing hdone.1
      · cases hclose
  | plugin id =>
      simp only [Machine.Does, pageMachine, Option.map_eq_some_iff] at hdoes
      obtain ⟨ble, hble, hpost⟩ := hdoes
      cases hpost
      exact .plugin (by simp only [Machine.Does, bleMachine, hble, Option.map_some])
  | resume id =>
      simp only [Machine.Does, pageMachine, Option.map_eq_some_iff] at hdoes
      obtain ⟨ble, hble, hpost⟩ := hdoes
      cases hpost
      exact .resume (by simp only [Machine.Does, bleMachine, hble, Option.map_some])
  | results k batch =>
      simp only [Machine.Does, pageMachine, HomePage.deliver, Option.map_eq_some_iff] at hdoes
      obtain ⟨t, hlive, hpost⟩ := hdoes
      by_cases hclosed : s.closed = true
      · rw [if_pos hclosed] at hpost
        cases hpost
        exact .resultsClosed hlive hclosed
      · rw [if_neg hclosed] at hpost
        cases hpost
        exact .results hlive (Bool.eq_false_of_not_eq_true hclosed)

end Steps

/-! ## What is shown -/

/-- The switch is on, on a page that has not been left. -/
def HomePage.on (s : HomePage) : Bool :=
  s.proximity && s.mounted

/-- The switch is turned on only when it is off. -/
def TurnedOnOff (x : PageEntry) : Prop :=
  ∀ id, x.act = .toggle id true → x.pre.proximity = false

/-- The events that the service adds to the stream. -/
def HomePage.emitted (s : HomePage) : PageEvent → List ProximityEvent
  | .results k batch =>
      match s.ble.live k with
      | some t => (onResults t s.ble.nearby batch).2
      | none => []
  | _ => []

/-- The listener of a page is that of its last subscription. -/
structure Attached (s : HomePage) : Prop where
  listeners : s.listeners = if s.on then s.proximitySubscription.toList else []
  subscribed : s.on = true → s.proximitySubscription.isSome
  left : s.disposing.isSome → s.mounted = false
  closed : s.closed = true → s.mounted = false

variable {platformName : DeviceIdentifier → DString} {tr : List PageEntry} {s : HomePage}
  {x : PageEntry}

theorem Attached.built : Attached .built where
  listeners := rfl
  subscribed := by simp [HomePage.built, HomePage.on]
  left := by simp [HomePage.built]
  closed := by simp [HomePage.built]

theorem Attached.otherListeners (h : Attached s) : s.otherListeners = [] := by
  unfold HomePage.otherListeners
  rw [h.listeners]
  cases s.proximitySubscription with
  | none => cases s.on <;> rfl
  | some k => cases s.on <;> simp

theorem Attached.step (hdoes : (pageMachine platformName).Does x) (honce : TurnedOnOff x)
    (h : Attached x.pre) : Attached x.post := by
  have hstep := page_step hdoes
  obtain ⟨s, act, out, s'⟩ := x
  simp only at hstep h ⊢
  obtain ⟨hlisteners, hsubscribed, hleft, hclosed⟩ := h
  cases hstep with
  | on hmounted hfree =>
      have hoff : s.proximity = false := honce _ rfl
      refine ⟨?_, fun _ => rfl, hleft, hclosed⟩
      simp [hlisteners, HomePage.on, hoff, hmounted]
  | off hmounted =>
      refine ⟨?_, by simp [HomePage.on], hleft, hclosed⟩
      simpa [HomePage.on] using
        Attached.otherListeners ⟨hlisteners, hsubscribed, hleft, hclosed⟩
  | dispose hmounted hfree =>
      refine ⟨?_, by simp [HomePage.on], fun _ => rfl, fun _ => rfl⟩
      simpa [HomePage.on] using
        Attached.otherListeners ⟨hlisteners, hsubscribed, hleft, hclosed⟩
  | close hdisposing hdone =>
      have hmounted : s.mounted = false := hleft (by rw [hdisposing, Option.isSome_some])
      refine ⟨?_, hsubscribed, hleft, fun _ => hmounted⟩
      simp [HomePage.on, hmounted]
  | _ => exact ⟨hlisteners, hsubscribed, hleft, hclosed⟩

theorem attached (hrun : Run (pageMachine platformName) .built tr s)
    (honce : ∀ x ∈ tr, TurnedOnOff x) : Attached s :=
  Run.induction (P := fun _ s => Attached s) hrun (Along.of_forall_mem honce) .built
    fun _ _ _ _ hx hdoes h => h.step hdoes hx

theorem Attached.shows (h : Attached s) (events : List ProximityEvent) :
    s.shows platformName events =
      if s.on then events.map fun event => .setStatus (statusOf platformName event) else [] := by
  unfold HomePage.shows
  rw [h.listeners]
  cases hon : s.on with
  | false => simp
  | true =>
      obtain ⟨k, hk⟩ := Option.isSome_iff_exists.mp (h.subscribed hon)
      have hmounted : s.mounted = true := (Bool.and_eq_true _ _ ▸ hon).2
      simp only [hk, hmounted, Option.toList_some, List.flatMap_singleton, if_true]
      exact List.flatMap_pure_eq_map _ _

/-- **In every interleaving of the page with its service, an event is shown once while the
switch is on, and not at all while it is off**, or once the page has been left. -/
theorem shown_while_on (hrun : Run (pageMachine platformName) .built tr s)
    (honce : ∀ x ∈ tr, TurnedOnOff x) (hx : x ∈ tr) :
    x.out.filter (· ≠ .badState) =
      if x.pre.on then
        (x.pre.emitted x.act).map fun event => .setStatus (statusOf platformName event)
      else [] := by
  obtain ⟨pre, post, rfl⟩ := List.append_of_mem hx
  obtain ⟨hpre, hdoes⟩ := hrun.split
  have hattached := attached hpre fun y hy => honce y (by simp [hy])
  have hstep := page_step hdoes
  obtain ⟨s, act, out, s'⟩ := x
  simp only at hstep hattached ⊢
  cases hstep with
  | results hlive hopen =>
      simp only [hattached.shows, HomePage.emitted, hlive]
      cases s.on <;> simp
  | resultsClosed hlive hclosed =>
      have hon : s.on = false := by simp [HomePage.on, hattached.closed hclosed]
      rw [hon]
      split <;> simp
  | _ => simp [HomePage.emitted]

/-- A phone near by, seen while the switch is on and then while it is being turned off. -/
def seenTwice : List PageEvent :=
  [.toggle 0 true, .resume 0, .plugin 0, .resume 0, .plugin 0, .resume 0,
    .results 0 [⟨ofString "A", -60, [openBioUnlockService]⟩], .toggle 1 false,
    .results 0 [⟨ofString "A", -60, [openBioUnlockService]⟩]]

theorem shown_while_on_seenTwice :
    ((pageMachine fun _ => []).trace .built seenTwice).length = 9 ∧
      ∀ x ∈ (pageMachine fun _ => []).trace .built seenTwice,
        x.out.filter (· ≠ .badState) =
          if x.pre.on then
            (x.pre.emitted x.act).map fun event => .setStatus (statusOf (fun _ => []) event)
          else [] := by
  have honce : ∀ x ∈ (pageMachine fun _ => []).trace .built seenTwice, TurnedOnOff x := by
    repeat' refine List.forall_mem_cons.mpr ⟨?_, ?_⟩
    all_goals first
      | exact List.forall_mem_nil _
      | (rintro id hact
         cases hact <;> rfl)
  exact ⟨by decide, fun x hx => shown_while_on (Run.trace _ HomePage.built seenTwice) honce hx⟩

/-! ## At rest -/

section Service

variable {on : Bool} {s : BleService} {id : ℕ} {task : ScanTask}

def NoneLive (s : BleService) : Prop :=
  ∀ k, s.live k = none

/-- Nothing is live but the subscription that the service has. -/
def Tended (s : BleService) : Prop :=
  ∀ k, (s.live k).isSome → s.subscription = some k

/-- What the service has is live, and nothing else is. -/
def OneLive (s : BleService) : Prop :=
  Tended s ∧ ∃ k, s.subscription = some k ∧ (s.live k).isSome

/-- How far a call is, of a service that is being turned on or off. -/
def InStage (on : Bool) (s : BleService) : ScanTask → Prop
  | ⟨.startProximityScan _, .starting⟩ => on = true ∧ OneLive s
  | ⟨.startProximityScan _, .started⟩ => on = true ∧ OneLive s ∧ s.scanning = true
  | ⟨.startProximityScan _, _⟩ => on = true ∧ NoneLive s
  | ⟨.stop, .stopping⟩ => on = false ∧ Tended s
  | ⟨.stop, .stopped⟩ => on = false ∧ Tended s ∧ s.scanning = false
  | ⟨.stop, .cancelling⟩ => on = false ∧ NoneLive s ∧ s.scanning = false
  | ⟨.stop, _⟩ => False

/-- A service that has been turned on or off. -/
structure Settled (on : Bool) (s : BleService) : Prop where
  scanning : s.scanning = on
  one : on = true → OneLive s
  none : on = false → NoneLive s

/-- There is one call at most, and it is where it should be. -/
structure Staged (on : Bool) (s : BleService) : Prop where
  one : ∀ i j, s.tasks i ≠ none → s.tasks j ≠ none → i = j
  stage : ∀ id task, s.tasks id = some task → InStage on s task

theorem NoneLive.tended (h : NoneLive s) : Tended s := by
  intro k hk
  rw [h k] at hk
  cases hk

theorem Settled.tended (h : Settled on s) : Tended s := by
  cases on with
  | true => exact (h.one rfl).1
  | false => exact (h.none rfl).tended

/-- Cancelling what the service has leaves nothing live. -/
theorem Tended.cancel (h : Tended s) : NoneLive s.cancelSubscription := by
  intro k
  by_contra hk
  obtain ⟨t, ht⟩ := Option.ne_none_iff_exists'.mp hk
  obtain ⟨hlive, hother⟩ := BleService.cancelSubscription_live.mp ht
  exact hother (h k (by rw [hlive, Option.isSome_some]))

theorem NoneLive.listen (h : NoneLive s) (t : Thresholds) : OneLive (s.listen t) := by
  refine ⟨fun k hk => ?_, s.created, rfl, by rw [listen_isSome]; exact .inl rfl⟩
  rw [listen_isSome, h k] at hk
  rw [hk.resolve_right (by simp)]
  rfl

theorem Staged.others (h : Staged on s) (htask : s.tasks id = some task) :
    ∀ j, j ≠ id → s.tasks j = none := by
  intro j hj
  by_contra hsome
  exact hj (h.one j id hsome (by simp [htask]))

/-- The one call goes on to the next of its awaits. -/
theorem Staged.goto (hothers : ∀ j, j ≠ id → s.tasks j = none) (hstage : InStage on s task) :
    Staged on (s.goto id task) := by
  have htasks : ∀ j task', (s.goto id task).tasks j = some task' → j = id ∧ task' = task := by
    intro j task' hj
    by_cases hid : j = id
    · subst hid
      simpa [BleService.goto, eq_comm] using hj
    · simp [BleService.goto, hid, hothers j hid] at hj
  constructor
  · intro i j hi hj
    obtain ⟨_, hi⟩ := Option.ne_none_iff_exists'.mp hi
    obtain ⟨_, hj⟩ := Option.ne_none_iff_exists'.mp hj
    rw [(htasks i _ hi).1, (htasks j _ hj).1]
  · intro j task' hj
    rw [(htasks j task' hj).2]
    exact hstage

/-- A service with nothing under way. -/
theorem Completed.staged (h : Completed s) : Staged on s :=
  ⟨fun i _ hi => absurd (h i) hi, fun id task htask => by simp [h id] at htask⟩

theorem completed_finish (hothers : ∀ j, j ≠ id → s.tasks j = none) : Completed (s.finish id) := by
  intro j
  by_cases hid : j = id
  · simp [BleService.finish, hid]
  · simp [BleService.finish, hid, hothers j hid]

/-- What a step of a call makes of the service. -/
structure GoneOn (on : Bool) (s s' : BleService) : Prop where
  busy : ¬ Completed s
  staged : Staged on s'
  settled : Completed s' → Settled on s'
  /-- no call begins -/
  free : ∀ j, s.tasks j = none → s'.tasks j = none

theorem Staged.goneOn {s' : BleService} (h : Staged on s) (htask : s.tasks id = some task)
    {task' : ScanTask} (hstage : InStage on s' task') (htasks : s'.tasks = s.tasks) :
    GoneOn on s (s'.goto id task') where
  busy hdone := by simp [hdone id] at htask
  staged := .goto (by rw [htasks]; exact h.others htask) hstage
  settled hdone := absurd (hdone id) (by simp [BleService.goto])
  free j hj := by
    have hid : j ≠ id := by
      rintro rfl
      rw [htask] at hj
      cases hj
    simp [BleService.goto, hid, htasks, hj]

theorem Staged.returned {s' : BleService} (h : Staged on s) (htask : s.tasks id = some task)
    (hsettled : Settled on s') (htasks : s'.tasks = s.tasks) : GoneOn on s (s'.finish id) where
  busy hdone := by simp [hdone id] at htask
  staged := (completed_finish (by rw [htasks]; exact h.others htask)).staged
  settled _ := ⟨hsettled.scanning, hsettled.one, hsettled.none⟩
  free j hj := by
    by_cases hid : j = id
    · simp [BleService.finish, hid]
    · simp [BleService.finish, hid, htasks, hj]

/-- **A step of a call**: it is the one that is under way, and goes on to where it should be. -/
theorem Staged.step {act : BleEvent} {out : List ProximityEvent} {s' : BleService}
    (h : Staged on s) (hdoes : bleMachine.Does ⟨s, act, out, s'⟩)
    (hact : act = .plugin id ∨ act = .resume id) :
    GoneOn on s s' := by
  have hstep := ble_step hdoes
  simp only at hstep
  cases hstep with
  | start hfree | stop hfree | results hlive => simp at hact
  | @stopsScan _ call htask =>
      have hstage := h.stage _ _ htask
      refine h.goneOn htask ?_ rfl
      cases call with
      | startProximityScan t => exact hstage
      | stop => exact ⟨hstage.1, hstage.2, rfl⟩
  | @startsScan _ call htask =>
      have hstage := h.stage _ _ htask
      refine h.goneOn htask ?_ rfl
      cases call with
      | startProximityScan t => exact ⟨hstage.1, hstage.2, rfl⟩
      | stop => exact hstage
  | startCancelled htask =>
      have hstage := h.stage _ _ htask
      exact h.goneOn htask hstage rfl
  | listens htask =>
      obtain ⟨hon, hnone⟩ := h.stage _ _ htask
      exact h.goneOn htask ⟨hon, hnone.listen _⟩ rfl
  | startReturns htask =>
      obtain ⟨hon, hone, hscanning⟩ := h.stage _ _ htask
      exact h.returned htask ⟨by rw [hscanning, hon], fun _ => hone, by simp [hon]⟩ rfl
  | stopCancels htask =>
      obtain ⟨hoff, htended, hscanning⟩ := h.stage _ _ htask
      refine h.goneOn htask ⟨hoff, htended.cancel, ?_⟩ BleService.cancelSubscription_tasks
      rw [BleService.cancelSubscription_scanning, hscanning]
  | stopReturns htask =>
      obtain ⟨hoff, hnone, hscanning⟩ := h.stage _ _ htask
      exact h.returned htask
        ⟨by simp [BleService.forget, hscanning, hoff], by simp [hoff], fun _ => hnone⟩ rfl

end Service

section Page

variable {platformName : DeviceIdentifier → DString} {tr : List PageEntry} {s : HomePage}
  {x : PageEntry}

/-- Nothing is under way. -/
def HomePage.Idle (s : HomePage) : Prop :=
  Completed s.ble ∧ s.cancelling = []

/-- The switch is used, and the page is left, only when nothing is under way. -/
def UsedIdle (x : PageEntry) : Prop :=
  ∀ id, ((∃ value, x.act = .toggle id value) ∨ x.act = .dispose id) → x.pre.Idle

/-- What holds of a page that is used so. -/
structure InTurn (s : HomePage) : Prop where
  staged : Staged s.on s.ble
  idle : s.Idle → Settled s.on s.ble
  cancelling : s.cancelling ≠ [] →
    (∃ id, s.cancelling = [id]) ∧ Completed s.ble ∧ s.on = false ∧ Tended s.ble
  disposing : ∀ id, s.disposing = some id →
    s.mounted = false ∧ s.cancelling = [] ∧ ∀ j, j ≠ id → s.ble.tasks j = none
  closed : s.closed = true → s.mounted = false ∧ s.Idle

theorem InTurn.built : InTurn .built where
  staged := Completed.staged fun _ => rfl
  idle _ := ⟨rfl, by simp [HomePage.built, HomePage.on], fun _ _ => rfl⟩
  cancelling := by simp [HomePage.built]
  disposing := by simp [HomePage.built]
  closed := by simp [HomePage.built]

/-- A call has gone on. -/
theorem InTurn.goneOn {ble : BleService} (h : InTurn s) (hgone : GoneOn s.on s.ble ble) :
    InTurn { s with ble } where
  staged := hgone.staged
  idle hidle := hgone.settled hidle.1
  cancelling hwaits := absurd (h.cancelling hwaits).2.1 hgone.busy
  disposing id hdisposing := by
    obtain ⟨hmounted, hwaits, hothers⟩ := h.disposing id hdisposing
    exact ⟨hmounted, hwaits, fun j hj => hgone.free j (hothers j hj)⟩
  closed hclosed := absurd (h.closed hclosed).2.1 hgone.busy

theorem InTurn.step (hdoes : (pageMachine platformName).Does x) (hidle : UsedIdle x)
    (h : InTurn x.pre) : InTurn x.post := by
  have hstep := page_step hdoes
  obtain ⟨s, act, out, s'⟩ := x
  simp only at hstep h ⊢
  cases hstep with
  | @on id hmounted hfree =>
      obtain ⟨hdone, hwaits⟩ := hidle id (.inl ⟨true, rfl⟩)
      have htended := (h.idle ⟨hdone, hwaits⟩).tended
      have hstaged : Staged true (s.ble.call id (.startProximityScan defaultThresholds)) :=
        .goto (by simpa using fun j _ => hdone j) ⟨rfl, htended.cancel⟩
      refine ⟨?_, fun hrest => ?_, fun hne => absurd hwaits hne, fun i hi => ?_, fun hclosed => ?_⟩
      · simpa [HomePage.on, hmounted] using hstaged
      · exact absurd (hrest.1 id) (by simp [BleService.call, BleService.goto])
      · exact absurd (h.disposing i hi).1 (by simp [hmounted])
      · exact absurd (h.closed hclosed).1 (by simp [hmounted])
  | @off id hmounted =>
      obtain ⟨hdone, hwaits⟩ := hidle id (.inl ⟨false, rfl⟩)
      have htended := (h.idle ⟨hdone, hwaits⟩).tended
      refine ⟨Completed.staged hdone, fun hrest => absurd hrest.2 (by simp), fun _ => ?_,
        fun i hi => ?_, fun hclosed => ?_⟩
      · exact ⟨⟨id, by rw [hwaits]⟩, hdone, rfl, htended⟩
      · exact absurd (h.disposing i hi).1 (by simp [hmounted])
      · exact absurd (h.closed hclosed).1 (by simp [hmounted])
  | @goesOn id hwaits hfree =>
      obtain ⟨⟨i, hone⟩, hdone, hoff, htended⟩ := h.cancelling (List.ne_nil_of_mem hwaits)
      have hid : id = i := by simpa [hone] using hwaits
      have hnone : s.cancelling.erase id = [] := by simp [hone, hid]
      refine ⟨.goto (fun j _ => hdone j) ⟨hoff, htended⟩, fun hrest => ?_,
        fun hne => absurd hnone hne, fun j hj => ?_, fun hclosed => ?_⟩
      · exact absurd (hrest.1 id) (by simp [BleService.call, BleService.goto])
      · exact absurd (h.disposing j hj).2.1 (List.ne_nil_of_mem hwaits)
      · exact absurd (h.closed hclosed).2.2 (List.ne_nil_of_mem hwaits)
  | @dispose id hmounted hfree =>
      obtain ⟨hdone, hwaits⟩ := hidle id (.inr rfl)
      have htended := (h.idle ⟨hdone, hwaits⟩).tended
      have hstaged : Staged false (s.ble.call id .stop) :=
        .goto (fun j _ => hdone j) ⟨rfl, htended⟩
      refine ⟨?_, fun hrest => ?_, fun hne => absurd hwaits hne, fun i hi => ⟨rfl, hwaits, ?_⟩,
        fun hclosed => ?_⟩
      · simpa [HomePage.on] using hstaged
      · exact absurd (hrest.1 id) (by simp [BleService.call, BleService.goto])
      · intro j hj
        have hid : j ≠ id := fun hji => hj (hji.trans (Option.some.inj hi))
        simpa [BleService.call, BleService.goto, hid] using hdone j
      · exact absurd (h.closed hclosed).1 (by simp [hmounted])
  | @close id hdisposing hdone =>
      obtain ⟨hmounted, hwaits, hothers⟩ := h.disposing id hdisposing
      refine ⟨h.staged, h.idle, h.cancelling, h.disposing, fun _ => ⟨hmounted, fun j => ?_, hwaits⟩⟩
      by_cases hj : j = id
      · rw [hj, hdone]
      · exact hothers j hj
  | plugin hble => exact h.goneOn (h.staged.step hble (.inl rfl))
  | resume hble => exact h.goneOn (h.staged.step hble (.inr rfl))
  | results hlive | resultsClosed hlive =>
      exact ⟨⟨h.staged.one, h.staged.stage⟩, fun hrest => ⟨(h.idle hrest).1, (h.idle hrest).2,
        (h.idle hrest).3⟩, h.cancelling, h.disposing, h.closed⟩

theorem inTurn (hrun : Run (pageMachine platformName) .built tr s)
    (hidle : ∀ x ∈ tr, UsedIdle x) : InTurn s :=
  Run.induction (P := fun _ s => InTurn s) hrun (Along.of_forall_mem hidle) .built
    fun _ _ _ _ hx hdoes h => h.step hdoes hx

/-- **A page that is used in turn**: whenever nothing is under way, the phone scans exactly
while the switch is on, and exactly one listener of scan results is live while it does.  The
service never adds an event to a stream that is closed. -/
theorem switch_at_rest (hrun : Run (pageMachine platformName) .built tr s)
    (hidle : ∀ x ∈ tr, UsedIdle x) :
    (s.Idle → s.ble.scanning = s.on ∧
      if s.on then ∃! k, (s.ble.live k).isSome else ∀ k, s.ble.live k = none) ∧
      ∀ x ∈ tr, .badState ∉ x.out := by
  refine ⟨fun hrest => ?_, fun x hx => ?_⟩
  · have hsettled := (inTurn hrun hidle).idle hrest
    refine ⟨hsettled.scanning, ?_⟩
    cases hon : s.on with
    | false =>
        rw [if_neg (by simp)]
        exact hsettled.none hon
    | true =>
        obtain ⟨htended, k, hk, hlive⟩ := hsettled.one hon
        rw [if_pos rfl]
        refine ⟨k, hlive, fun j hj => ?_⟩
        exact Option.some.inj ((htended j hj).symm.trans hk)
  · obtain ⟨pre, post, rfl⟩ := List.append_of_mem hx
    obtain ⟨hpre, hdoes⟩ := hrun.split
    have hturn := inTurn hpre fun y hy => hidle y (by simp [hy])
    have hstep := page_step hdoes
    obtain ⟨s, act, out, s'⟩ := x
    simp only at hstep hturn ⊢
    cases hstep with
    | results hlive hopen => simp [HomePage.shows]
    | @resultsClosed k _ _ hlive hclosed =>
        obtain ⟨hmounted, hrest⟩ := hturn.closed hclosed
        have hnone := (hturn.idle hrest).none (by simp [HomePage.on, hmounted]) k
        rw [hlive] at hnone
        cases hnone
    | _ => simp

/-- On, off when the scan has started, and left when it has stopped. -/
def usedSlowly : List PageEvent :=
  [.toggle 0 true, .resume 0, .plugin 0, .resume 0, .plugin 0, .resume 0, .toggle 1 false,
    .goesOn 1, .plugin 1, .resume 1, .resume 1, .dispose 2, .plugin 2, .resume 2, .resume 2, .close]

theorem switch_at_rest_usedSlowly :
    ((pageMachine fun _ => []).trace .built usedSlowly).length = 16 ∧
      (∀ k, ((pageMachine fun _ => []).final .built usedSlowly).ble.live k = none) ∧
      ((pageMachine fun _ => []).final .built usedSlowly).ble.scanning = false := by
  have hidle : ∀ x ∈ (pageMachine fun _ => []).trace .built usedSlowly, UsedIdle x := by
    repeat' refine List.forall_mem_cons.mpr ⟨?_, ?_⟩
    all_goals first
      | exact List.forall_mem_nil _
      | (rintro id (⟨value, hact⟩ | hact)
         all_goals
           cases hact
           try exact ⟨fun j => by rcases j with _ | _ | _ | j <;> rfl, rfl⟩)
  have hrest : ((pageMachine fun _ => []).final .built usedSlowly).Idle :=
    ⟨fun j => by rcases j with _ | _ | _ | j <;> rfl, rfl⟩
  obtain ⟨hscanning, hnone⟩ :=
    (switch_at_rest (Run.trace _ HomePage.built usedSlowly) hidle).1 hrest
  exact ⟨by decide, hnone, hscanning⟩

end Page

end OpenBioUnlock.Mobile

import OpenBioUnlock.Machine.OneTime
import OpenBioUnlock.Mobile.BleService

/-!
# The life cycle of a scan

At every moment at most one subscription should be live, and none, and no scan, once
all calls have completed and the last one was `stop`.

Both methods wait between reading `_subscription` and replacing it, so a subscription
can be replaced or forgotten before anything cancels it, and a scan can be started
after the `stop` that should have ended it.  `InOrder` says when that happens: it
looks at the order in which the calls cancel, listen and forget, and at the order in
which the plugin starts and stops scanning.  `scan_life_cycle_iff` is the result, for
every run.
-/

namespace OpenBioUnlock.Mobile

open Runs

/-! ## The law -/

def AtMostOneLive (s : BleService) : Prop :=
  ∀ j k, (s.live j).isSome → (s.live k).isSome → j = k

/-- No call is under way. -/
def Completed (s : BleService) : Prop :=
  ∀ id, s.tasks id = none

/-- The call issued last. -/
def calledLast (tr : List BleEntry) : Option ScanCall :=
  lastSome (fun x => match x.act with | .call _ call => some call | _ => none) tr

/-- What should hold at every moment. -/
structure Tidy (tr : List BleEntry) (s : BleService) : Prop where
  single : AtMostOneLive s
  quiet : Completed s → calledLast tr = some .stop →
    (∀ k, s.live k = none) ∧ s.scanning = false

/-- **The law**: it does, at every moment of the run. -/
def LifeCycle (tr : List BleEntry) : Prop :=
  Along (fun pre x => Tidy (pre ++ [x]) x.post) tr

/-! ## The order of the steps -/

/-- What a step does with the field `_subscription`. -/
inductive FieldUse where
  /-- cancels the subscription it holds -/
  | cancels
  /-- makes a subscription, and sets the field to it -/
  | listens
  /-- sets it to null -/
  | forgets
  deriving DecidableEq

def fieldUse (x : BleEntry) : Option FieldUse :=
  match x.act with
  | .call _ (.startProximityScan _) => some .cancels
  | .resume id =>
      match x.pre.tasks id with
      | some ⟨.startProximityScan _, .stopped⟩ => some .listens
      | some ⟨.stop, .stopped⟩ => some .cancels
      | some ⟨.stop, .cancelling⟩ => some .forgets
      | _ => none
  | _ => none

def fieldUses (tr : List BleEntry) : List FieldUse :=
  tr.filterMap fieldUse

/-- The plugin stops or starts scanning in this step. -/
def scanSwitch (x : BleEntry) : Option Bool :=
  match x.act with
  | .plugin id =>
      match x.pre.tasks id with
      | some ⟨_, .stopping⟩ => some false
      | some ⟨_, .starting⟩ => some true
      | _ => none
  | _ => none

/-- The next use of the field after each `listen` is a `cancel`. -/
def Answered (uses : List FieldUse) : Prop :=
  ∀ before after, uses = before ++ .listens :: after → after.head? = some .cancels

/-- **The steps are in order**: a call listens only when the subscriptions before have been
cancelled, and once all calls have completed and the last was `stop`, so has every one,
and the plugin was last told to stop. -/
structure InOrder (pre : List BleEntry) (x : BleEntry) : Prop where
  listens : fieldUse x = some .listens → Answered (fieldUses pre)
  ends : Completed x.post → calledLast (pre ++ [x]) = some .stop →
    Answered (fieldUses (pre ++ [x])) ∧ lastSome scanSwitch (pre ++ [x]) ≠ some true

/-! ## Uses of the field -/

/-- No subscription is replaced or forgotten before it is cancelled. -/
def Guarded (uses : List FieldUse) : Prop :=
  ∀ before u after, uses = before ++ .listens :: u :: after → u = .cancels

variable {uses : List FieldUse} {u : FieldUse}

theorem Guarded.nil : Guarded [] := by
  intro before u after h
  simp at h

theorem guarded_snoc :
    Guarded (uses ++ [u]) ↔ Guarded uses ∧ (uses.getLast? = some .listens → u = .cancels) := by
  constructor
  · refine fun h => ⟨fun before v after huses => h before v (after ++ [u]) (by simp [huses]), ?_⟩
    intro hlast
    obtain ⟨before, rfl⟩ := List.getLast?_eq_some_iff.mp hlast
    exact h before u [] (by simp)
  · rintro ⟨h, hlast⟩ before v after huses
    have hsplit : uses ++ [u] = (before ++ [.listens]) ++ v :: after := by simp [huses]
    rcases snoc_split hsplit with ⟨-, rfl, rfl⟩ | ⟨rest, -, rfl⟩
    · exact hlast (by simp)
    · exact h before v rest (by simp)

theorem answered_iff : Answered uses ↔ Guarded uses ∧ uses.getLast? ≠ some .listens := by
  constructor
  · refine fun h => ⟨fun before v after huses => ?_, fun hlast => ?_⟩
    · simpa using h before (v :: after) huses
    · obtain ⟨before, rfl⟩ := List.getLast?_eq_some_iff.mp hlast
      simpa using h before [] rfl
  · rintro ⟨h, hlast⟩ before after rfl
    cases after with
    | nil => simp at hlast
    | cons v after => rw [h before v after rfl, List.head?_cons]

/-! ## What is live -/

/-- The live subscriptions, as the uses of the field have it. -/
structure Held (uses : List FieldUse) (s : BleService) : Prop where
  fresh : ∀ k t, s.live k = some t → k < s.created
  held : uses.getLast? = some .listens → ∃ k t, s.subscription = some k ∧ s.live k = some t
  guarded : Guarded uses → ∀ k t, s.live k = some t →
    s.subscription = some k ∧ uses.getLast? = some .listens
  leaked : ¬ Guarded uses → ∃ k t, s.live k = some t ∧ s.subscription ≠ some k

variable {s : BleService}

theorem Held.constructed : Held [] .constructed where
  fresh := by simp [BleService.constructed]
  held := by simp
  guarded := by simp [BleService.constructed]
  leaked h := absurd Guarded.nil h

/-- A step that leaves the field and the subscriptions alone. -/
theorem Held.same {s' : BleService} (h : Held uses s) (hsub : s'.subscription = s.subscription)
    (hlive : s'.live = s.live) (hcreated : s'.created = s.created) : Held uses s' := by
  obtain ⟨hfresh, hheld, hguarded, hleaked⟩ := h
  rw [← hlive, ← hcreated] at hfresh
  rw [← hlive, ← hsub] at hheld hguarded hleaked
  exact ⟨hfresh, hheld, hguarded, hleaked⟩

theorem Held.cancels (h : Held uses s) : Held (uses ++ [.cancels]) s.cancelSubscription := by
  refine ⟨fun k t hlive => ?_, by simp, fun hguarded k t hlive => ?_, fun hleaked => ?_⟩
  · rw [BleService.cancelSubscription_created]
    exact h.fresh k t (BleService.cancelSubscription_live.mp hlive).1
  · obtain ⟨hold, hother⟩ := BleService.cancelSubscription_live.mp hlive
    exact absurd (h.guarded (guarded_snoc.mp hguarded).1 k t hold).1 hother
  · rw [guarded_snoc, not_and_or] at hleaked
    obtain ⟨k, t, hlive, hother⟩ := h.leaked (hleaked.resolve_right (by simp))
    exact ⟨k, t, BleService.cancelSubscription_live.mpr ⟨hlive, hother⟩, by simpa using hother⟩

/-- What is leaked, now or with the next use, is live. -/
theorem Held.leak {v : FieldUse} (h : Held uses s)
    (hleaked : ¬ Guarded (uses ++ [v])) : ∃ k t, s.live k = some t := by
  rw [guarded_snoc, not_and_or] at hleaked
  rcases hleaked with hleaked | hleaked
  · obtain ⟨k, t, hlive, -⟩ := h.leaked hleaked
    exact ⟨k, t, hlive⟩
  · obtain ⟨k, t, -, hlive⟩ := h.held (by tauto)
    exact ⟨k, t, hlive⟩

theorem Held.listens (h : Held uses s) (t : Thresholds) :
    Held (uses ++ [.listens]) (s.listen t) := by
  refine ⟨fun k t' hlive => ?_, fun _ => ?_, fun hguarded k t' hlive => ?_, fun hleaked => ?_⟩
  · rcases BleService.listen_live.mp hlive with ⟨rfl, -⟩ | ⟨-, hold⟩
    · exact Nat.lt_succ_self _
    · exact Nat.lt_succ_of_lt (h.fresh k t' hold)
  · exact ⟨s.created, t, rfl, BleService.listen_live.mpr (Or.inl ⟨rfl, rfl⟩)⟩
  · obtain ⟨hbefore, hlast⟩ := guarded_snoc.mp hguarded
    rcases BleService.listen_live.mp hlive with ⟨rfl, -⟩ | ⟨-, hold⟩
    · exact ⟨rfl, by simp⟩
    · exact absurd (hlast (h.guarded hbefore k t' hold).2) (by simp)
  · obtain ⟨k, t', hlive⟩ := h.leak hleaked
    have hk : k ≠ s.created := Nat.ne_of_lt (h.fresh k t' hlive)
    refine ⟨k, t', BleService.listen_live.mpr (Or.inr ⟨hk, hlive⟩), fun hsub => hk ?_⟩
    exact (Option.some.inj hsub).symm

theorem Held.forgets (h : Held uses s) : Held (uses ++ [.forgets]) s.forget := by
  refine ⟨h.fresh, by simp, fun hguarded k t hlive => ?_, fun hleaked => ?_⟩
  · obtain ⟨hbefore, hlast⟩ := guarded_snoc.mp hguarded
    exact absurd (hlast (h.guarded hbefore k t hlive).2) (by simp)
  · obtain ⟨k, t, hlive⟩ := h.leak hleaked
    exact ⟨k, t, hlive, by simp [BleService.forget]⟩

/-! ## The invariants -/

variable {tr : List BleEntry} {x : BleEntry}

theorem fieldUses_snoc_some (hx : fieldUse x = some u) :
    fieldUses (tr ++ [x]) = fieldUses tr ++ [u] := by
  simp [fieldUses, hx]

theorem fieldUses_snoc_none (hx : fieldUse x = none) :
    fieldUses (tr ++ [x]) = fieldUses tr := by
  simp [fieldUses, hx]

/-- A step that does not use the field leaves it and the subscriptions alone. -/
theorem Held.step (hdoes : bleMachine.Does x) (h : Held (fieldUses tr) x.pre) :
    Held (fieldUses (tr ++ [x])) x.post := by
  have hstep := ble_step hdoes
  obtain ⟨pre, act, out, post⟩ := x
  simp only at hstep h ⊢
  cases hstep with
  | start hfree =>
      rw [fieldUses_snoc_some rfl]
      exact h.cancels.same rfl rfl rfl
  | stop hfree | stopsScan htask | startsScan htask | results hlive =>
      rw [fieldUses_snoc_none rfl]
      exact h.same rfl rfl rfl
  | startCancelled htask | startReturns htask =>
      rw [fieldUses_snoc_none (by simp [fieldUse, htask])]
      exact h.same rfl rfl rfl
  | listens htask =>
      rw [fieldUses_snoc_some (u := .listens) (by simp [fieldUse, htask])]
      exact (h.listens _).same rfl rfl rfl
  | stopCancels htask =>
      rw [fieldUses_snoc_some (u := .cancels) (by simp [fieldUse, htask])]
      exact h.cancels.same rfl rfl rfl
  | stopReturns htask =>
      rw [fieldUses_snoc_some (u := .forgets) (by simp [fieldUse, htask])]
      exact h.forgets.same rfl rfl rfl

theorem held (hrun : Run bleMachine .constructed tr s) : Held (fieldUses tr) s :=
  Run.history (P := fun tr s => Held (fieldUses tr) s) hrun .constructed
    fun _ _ _ hdoes h => h.step hdoes

/-- **No subscription is live exactly if each `listen` has been answered by a `cancel`.** -/
theorem no_live_iff (hrun : Run bleMachine .constructed tr s) :
    (∀ k, s.live k = none) ↔ Answered (fieldUses tr) := by
  have hheld := held hrun
  rw [answered_iff]
  constructor
  · refine fun hnone => ⟨by_contra fun hleaked => ?_, fun hlast => ?_⟩
    · obtain ⟨k, t, hlive, -⟩ := hheld.leaked hleaked
      simp [hnone k] at hlive
    · obtain ⟨k, t, -, hlive⟩ := hheld.held hlast
      simp [hnone k] at hlive
  · rintro ⟨hguarded, hlast⟩ k
    cases hk : s.live k with
    | none => rfl
    | some t => exact absurd (hheld.guarded hguarded k t hk).2 hlast

/-- Scanning is what the plugin was last told. -/
theorem scanning_eq (hrun : Run bleMachine .constructed tr s) :
    s.scanning = (lastSome scanSwitch tr).getD false := by
  apply Run.history (P := fun tr s => s.scanning = (lastSome scanSwitch tr).getD false) hrun rfl
  intro tr x _ hdoes h
  have hstep := ble_step hdoes
  obtain ⟨pre, act, out, post⟩ := x
  simp only at hstep h ⊢
  rw [lastSome_snoc]
  cases hstep with
  | stopsScan htask | startsScan htask => simp [scanSwitch, htask, BleService.goto, BleService.scan]
  | start hfree | stopCancels htask =>
      simpa [scanSwitch, BleService.goto] using h
  | _ => exact h

/-- Only a call that listens adds to what is live. -/
theorem live_step (hdoes : bleMachine.Does x) :
    fieldUse x = some .listens ∧ (∃ t, x.post.live = (x.pre.listen t).live) ∨
      fieldUse x ≠ some .listens ∧ ∀ k, (x.post.live k).isSome → (x.pre.live k).isSome := by
  have hstep := ble_step hdoes
  obtain ⟨pre, act, out, post⟩ := x
  simp only at hstep ⊢
  have hcancelled : ∀ k, (pre.cancelSubscription.live k).isSome → (pre.live k).isSome := by
    intro k hlive
    obtain ⟨t, ht⟩ := Option.isSome_iff_exists.mp hlive
    exact Option.isSome_iff_exists.mpr ⟨t, (BleService.cancelSubscription_live.mp ht).1⟩
  cases hstep with
  | listens htask => exact Or.inl ⟨by simp [fieldUse, htask], _, rfl⟩
  | start hfree => exact Or.inr ⟨by simp [fieldUse], hcancelled⟩
  | stopCancels htask => exact Or.inr ⟨by simp [fieldUse, htask], hcancelled⟩
  | stop | stopsScan | startsScan | results => exact Or.inr ⟨by simp [fieldUse], fun _ => id⟩
  | startCancelled htask | startReturns htask | stopReturns htask =>
      exact Or.inr ⟨by simp [fieldUse, htask], fun _ => id⟩

/-! ## The result -/

theorem listen_isSome {t : Thresholds} {k : ℕ} :
    ((s.listen t).live k).isSome ↔ k = s.created ∨ (s.live k).isSome := by
  by_cases hk : k = s.created
  · simp [BleService.listen, hk]
  · simp [BleService.listen, hk]

/-- A call that listens where something is live makes two. -/
theorem answered_of_single (hrun : Run bleMachine .constructed tr x.pre)
    (hdoes : bleMachine.Does x) (hsingle : AtMostOneLive x.post)
    (hlistens : fieldUse x = some .listens) : Answered (fieldUses tr) := by
  obtain ⟨-, t, hlive⟩ | ⟨hother, -⟩ := live_step hdoes
  · rw [← no_live_iff hrun]
    intro k
    cases hk : x.pre.live k with
    | none => rfl
    | some t' =>
        have hold : (x.post.live k).isSome := by
          rw [hlive, listen_isSome, hk]
          exact Or.inr rfl
        have hnew : (x.post.live x.pre.created).isSome := by
          rw [hlive, listen_isSome]
          exact Or.inl rfl
        exact absurd ((held hrun).fresh k t' hk) (by rw [hsingle k _ hold hnew]; omega)
  · exact absurd hlistens hother

/-- A call that listens where nothing is live makes one. -/
theorem single_step (hrun : Run bleMachine .constructed tr x.pre) (hdoes : bleMachine.Does x)
    (hsingle : AtMostOneLive x.pre)
    (hanswered : fieldUse x = some .listens → Answered (fieldUses tr)) :
    AtMostOneLive x.post := by
  intro j k hj hk
  obtain ⟨hlistens, t, hlive⟩ | ⟨-, hfewer⟩ := live_step hdoes
  · have hnone := (no_live_iff hrun).mpr (hanswered hlistens)
    rw [hlive, listen_isSome, hnone] at hj hk
    rw [hj.resolve_right (by simp), hk.resolve_right (by simp)]
  · exact hsingle j k (hfewer j hj) (hfewer k hk)

/-- When the calls have completed, everything is off exactly if the order was right. -/
theorem quiet_iff (hrun : Run bleMachine .constructed tr s) :
    (∀ k, s.live k = none) ∧ s.scanning = false ↔
      Answered (fieldUses tr) ∧ lastSome scanSwitch tr ≠ some true := by
  have hscanning : s.scanning = false ↔ lastSome scanSwitch tr ≠ some true := by
    rw [scanning_eq hrun]
    cases lastSome scanSwitch tr with
    | none => simp
    | some on => cases on <;> simp
  rw [no_live_iff hrun, hscanning]

/-- At most one subscription is live as long as the calls listen in order. -/
theorem single (hrun : Run bleMachine .constructed tr s) (horder : Along InOrder tr) :
    AtMostOneLive s := by
  refine Run.induction (P := fun _ s => AtMostOneLive s) hrun horder ?_ ?_
  · intro j k hj
    simp [BleService.constructed] at hj
  · intro tr x hpre _ hx hdoes h
    exact single_step hpre hdoes h hx.listens

/-- **The law holds in exactly the runs whose steps are in order.** -/
theorem scan_life_cycle_iff (hrun : Run bleMachine .constructed tr s) :
    LifeCycle tr ↔ Along InOrder tr := by
  constructor
  · intro hcycle pre x post htr
    subst htr
    obtain ⟨hpre, hdoes⟩ := hrun.split
    have htidy := hcycle pre x post rfl
    refine ⟨answered_of_single hpre hdoes htidy.single, fun hdone hlast => ?_⟩
    exact (quiet_iff (hpre.snoc hdoes)).mp (htidy.quiet hdone hlast)
  · intro horder pre x post htr
    subst htr
    obtain ⟨hpre, hdoes⟩ := hrun.split
    refine ⟨single (hpre.snoc hdoes) horder.through, fun hdone hlast => ?_⟩
    exact (quiet_iff (hpre.snoc hdoes)).mpr ((horder pre x post rfl).ends hdone hlast)

/-! ## Calls that do not overlap -/

/-- A call is issued when the ones before have completed. -/
def Awaited (x : BleEntry) : Prop :=
  ∀ id call, x.act = .call id call → Completed x.pre

/-- Where a task stands, if it is the only one. -/
def Standing (tr : List BleEntry) : ScanTask → Prop
  | ⟨.startProximityScan _, .starting⟩ => calledLast tr ≠ some .stop
  | ⟨.startProximityScan _, .started⟩ => calledLast tr ≠ some .stop
  | ⟨.startProximityScan _, _⟩ =>
      calledLast tr ≠ some .stop ∧ (fieldUses tr).getLast? = some .cancels
  | ⟨.stop, .stopping⟩ => True
  | ⟨.stop, .stopped⟩ => lastSome scanSwitch tr = some false
  | ⟨.stop, .cancelling⟩ =>
      lastSome scanSwitch tr = some false ∧ (fieldUses tr).getLast? = some .cancels
  | ⟨.stop, _⟩ => False

/-- There is at most one task, and it stands where it should. -/
structure Alone (tr : List BleEntry) (s : BleService) : Prop where
  one : ∀ i j, s.tasks i ≠ none → s.tasks j ≠ none → i = j
  standing : ∀ id task, s.tasks id = some task → Standing tr task
  guarded : Guarded (fieldUses tr)
  done : Completed s → calledLast tr = some .stop →
    (fieldUses tr).getLast? ≠ some .listens ∧ lastSome scanSwitch tr ≠ some true

theorem Alone.constructed : Alone [] .constructed :=
  ⟨by simp [BleService.constructed], by simp [BleService.constructed], .nil,
    by simp [calledLast]⟩

variable {id : ℕ} {task : ScanTask}

/-- The one task goes on. -/
theorem Alone.goto (hothers : ∀ j, j ≠ id → s.tasks j = none)
    (hguarded : Guarded (fieldUses tr)) (hstanding : Standing tr task) :
    Alone tr (s.goto id task) := by
  have htasks : ∀ j task', (s.goto id task).tasks j = some task' → j = id ∧ task' = task := by
    intro j task' hj
    by_cases hid : j = id
    · subst hid
      simpa [BleService.goto, eq_comm] using hj
    · simp [BleService.goto, hid, hothers j hid] at hj
  refine ⟨fun i j hi hj => ?_, fun j task' hj => ?_, hguarded, fun hdone => ?_⟩
  · obtain ⟨_, hi⟩ := Option.ne_none_iff_exists'.mp hi
    obtain ⟨_, hj⟩ := Option.ne_none_iff_exists'.mp hj
    rw [(htasks i _ hi).1, (htasks j _ hj).1]
  · rw [(htasks j task' hj).2]
    exact hstanding
  · exact absurd (hdone id) (by simp [BleService.goto])

/-- The one task returns. -/
theorem Alone.finish (hothers : ∀ j, j ≠ id → s.tasks j = none)
    (hguarded : Guarded (fieldUses tr))
    (hdone : calledLast tr = some .stop →
      (fieldUses tr).getLast? ≠ some .listens ∧ lastSome scanSwitch tr ≠ some true) :
    Alone tr (s.finish id) := by
  have htasks : ∀ j, (s.finish id).tasks j = none := by
    intro j
    by_cases hid : j = id
    · simp [BleService.finish, hid]
    · simp [BleService.finish, hid, hothers j hid]
  exact ⟨fun i _ hi => absurd (htasks i) hi, by simp [htasks], hguarded, fun _ => hdone⟩

theorem Alone.others (h : Alone tr s) (htask : s.tasks id = some task) :
    ∀ j, j ≠ id → s.tasks j = none := by
  intro j hj
  by_contra hsome
  exact hj (h.one j id hsome (by simp [htask]))

theorem calledLast_snoc (tr : List BleEntry) (x : BleEntry)
    (hx : ∀ id call, x.act ≠ .call id call) : calledLast (tr ++ [x]) = calledLast tr := by
  obtain ⟨pre, act, out, post⟩ := x
  cases act with
  | call id call => exact absurd rfl (hx id call)
  | _ => simp [calledLast]

/-- A step that none of the three orders sees. -/
theorem standing_snoc (huse : fieldUse x = none) (hswitch : scanSwitch x = none)
    (hcall : ∀ id call, x.act ≠ .call id call) :
    Standing (tr ++ [x]) task ↔ Standing tr task := by
  unfold Standing
  rw [calledLast_snoc tr x hcall, fieldUses_snoc_none huse, lastSome_snoc, hswitch, Option.none_or]

/-- The one task listens or forgets when it has cancelled. -/
theorem Alone.cancelled (h : Alone tr x.pre) (huse : fieldUse x = some u) (hother : u ≠ .cancels) :
    (fieldUses tr).getLast? = some .cancels := by
  unfold fieldUse at huse
  split at huse
  · exact absurd (Option.some.inj huse).symm hother
  · rename_i id _
    split at huse
    · rename_i t htask
      exact (h.standing id _ htask).2
    · exact absurd (Option.some.inj huse).symm hother
    · rename_i htask
      exact (h.standing id _ htask).2
    · cases huse
  · cases huse

theorem Alone.guarded_step (h : Alone tr x.pre) : Guarded (fieldUses (tr ++ [x])) := by
  cases huse : fieldUse x with
  | none =>
      rw [fieldUses_snoc_none huse]
      exact h.guarded
  | some u =>
      rw [fieldUses_snoc_some huse]
      refine guarded_snoc.mpr ⟨h.guarded, fun hlast => ?_⟩
      by_contra hother
      rw [h.cancelled huse hother] at hlast
      cases hlast

theorem Alone.step (hdoes : bleMachine.Does x) (hawaited : Awaited x) (h : Alone tr x.pre) :
    Alone (tr ++ [x]) x.post := by
  have hstep := ble_step hdoes
  have hguarded := h.guarded_step
  obtain ⟨pre, act, out, post⟩ := x
  simp only at hstep h hguarded ⊢
  cases hstep with
  | start hfree =>
      refine .goto (fun j _ => by simpa using hawaited _ _ rfl j) hguarded
        ⟨by simp [calledLast], ?_⟩
      rw [fieldUses_snoc_some rfl]
      simp
  | stop hfree => exact .goto (fun j _ => hawaited _ _ rfl j) hguarded trivial
  | @stopsScan id call htask =>
      have hstanding := h.standing id _ htask
      refine .goto (h.others htask) hguarded ?_
      cases call with
      | startProximityScan t =>
          simp only [Standing]
          rw [calledLast_snoc _ _ (by simp), fieldUses_snoc_none rfl]
          exact hstanding
      | stop => simp [Standing, scanSwitch, htask]
  | @startsScan id call htask =>
      have hstanding := h.standing id _ htask
      refine .goto (h.others htask) hguarded ?_
      cases call with
      | startProximityScan t =>
          simp only [Standing]
          rw [calledLast_snoc _ _ (by simp)]
          exact hstanding
      | stop => exact hstanding
  | @startCancelled id t htask =>
      have hstanding := h.standing id _ htask
      refine .goto (h.others htask) hguarded ?_
      simp only [Standing]
      rw [calledLast_snoc _ _ (by simp), fieldUses_snoc_none (by simp [fieldUse, htask])]
      exact hstanding
  | @listens id t htask =>
      have hstanding := h.standing id _ htask
      refine .goto (h.others htask) hguarded ?_
      simp only [Standing]
      rw [calledLast_snoc _ _ (by simp)]
      exact hstanding.1
  | @startReturns id t htask =>
      have hstanding := h.standing id _ htask
      refine .finish (h.others htask) hguarded fun hstop => ?_
      rw [calledLast_snoc _ _ (by simp)] at hstop
      exact absurd hstop hstanding
  | @stopCancels id htask =>
      have hstanding := h.standing id _ htask
      refine .goto (by simpa using h.others htask) hguarded ⟨?_, ?_⟩
      · rw [lastSome_snoc]
        exact hstanding
      · rw [fieldUses_snoc_some (u := .cancels) (by simp [fieldUse, htask])]
        simp
  | @stopReturns id htask =>
      have hstanding := h.standing id _ htask
      refine .finish (h.others htask) hguarded fun _ => ⟨?_, ?_⟩
      · rw [fieldUses_snoc_some (u := .forgets) (by simp [fieldUse, htask])]
        simp
      · rw [lastSome_snoc]
        simp [scanSwitch, hstanding.1]
  | results hlive =>
      refine ⟨h.one, fun id task htask => ?_, hguarded, fun hdone => ?_⟩
      · exact (standing_snoc rfl rfl (by simp)).mpr (h.standing id task htask)
      · rw [calledLast_snoc _ _ (by simp), fieldUses_snoc_none rfl, lastSome_snoc]
        exact h.done hdone

/-- **Calls that are awaited are in order.** -/
theorem inOrder_of_awaited (hrun : Run bleMachine .constructed tr s)
    (hawaited : ∀ x ∈ tr, Awaited x) : Along InOrder tr := by
  rintro pre x post rfl
  obtain ⟨hpre, hdoes⟩ := hrun.split
  have hbefore : Alone pre x.pre :=
    Run.induction hpre (Along.of_forall_mem fun y hy => hawaited y (by simp [hy])) .constructed
      fun _ _ _ _ hy hdoes h => h.step hdoes hy
  have hafter := hbefore.step hdoes (hawaited x (by simp))
  refine ⟨fun hlistens => answered_iff.mpr ⟨hbefore.guarded, ?_⟩, fun hdone hstop => ?_⟩
  · rw [hbefore.cancelled hlistens (by simp)]
    simp
  · obtain ⟨hlast, hswitch⟩ := hafter.done hdone hstop
    exact ⟨answered_iff.mpr ⟨hafter.guarded, hlast⟩, hswitch⟩

/-- On and off, each call awaited. -/
def toggledSlowly : List BleEvent :=
  [.call 0 (.startProximityScan defaultThresholds), .resume 0, .plugin 0, .resume 0, .plugin 0,
    .resume 0, .call 1 .stop, .plugin 1, .resume 1, .resume 1]

theorem scan_life_cycle_iff_toggledSlowly :
    (bleMachine.trace .constructed toggledSlowly).length = 10 ∧
      LifeCycle (bleMachine.trace .constructed toggledSlowly) := by
  have hrun := Run.trace bleMachine .constructed toggledSlowly
  refine ⟨by decide, (scan_life_cycle_iff hrun).mpr (inOrder_of_awaited hrun ?_)⟩
  repeat' refine List.forall_mem_cons.mpr ⟨?_, ?_⟩
  all_goals first
    | exact List.forall_mem_nil _
    | (rintro id call hact j
       cases hact <;> rcases j with _ | _ | j <;> rfl)

/-- The switch is turned on, and off while the scan before is being stopped. -/
def toggledOff : List BleEvent :=
  [.call 0 (.startProximityScan defaultThresholds), .resume 0, .call 1 .stop, .plugin 0, .plugin 1,
    .resume 0, .resume 1, .resume 1, .plugin 0, .resume 0]

/-- Two calls both cancel before either listens. -/
def startedTwice : List BleEvent :=
  [.call 0 (.startProximityScan defaultThresholds), .call 1 (.startProximityScan defaultThresholds),
    .resume 0, .resume 1, .plugin 0, .plugin 1, .resume 0, .resume 1]

/-- After the one the phone goes on scanning, after the other it has two listeners. -/
theorem scan_life_cycle_fails :
    (Completed (bleMachine.final .constructed toggledOff) ∧
        (bleMachine.final .constructed toggledOff).scanning = true) ∧
      ¬ AtMostOneLive (bleMachine.final .constructed startedTwice) ∧
      ¬ ∀ tr s, Run bleMachine .constructed tr s → LifeCycle tr := by
  have htwo : ¬ AtMostOneLive (bleMachine.final .constructed startedTwice) :=
    fun h => absurd (h 0 1 (by decide) (by decide)) (by decide)
  refine ⟨⟨fun id => ?_, by decide⟩, htwo, fun h => htwo ?_⟩
  · rcases id with _ | _ | id <;> rfl
  · have hrun := Run.trace bleMachine .constructed startedTwice
    exact (hrun.at_end (P := Tidy) (h _ _ hrun) (List.ne_nil_of_length_pos (by decide))).single

end OpenBioUnlock.Mobile

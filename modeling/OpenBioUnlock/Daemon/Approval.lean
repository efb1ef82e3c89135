import OpenBioUnlock.Daemon.Authorization

/-!
# Approvals that are lost

A `Verify` that answers `authorized: true` has set the flag of an entry and
notified the waiter of the entry.  The `Authorize` that created the entry answers
`true` only if it is woken by that and then still finds the flag.  Three things
can come between:

* the approval comes when the waiter has not been created yet, or is gone;
* the time limit passes although the waiter was notified;
* an `Authorize` with the same challenge id replaces the entry, or removes it,
  before the one that was notified has looked.

`KeepsApprovals` excludes them, step by step.  `no_lost_approval_iff` is that
nothing else loses an approval, and that each of them does.
-/

namespace OpenBioUnlock.Daemon

open Codec Runs

/-- The answers to `Authorize` requests, each with the `Notify` it waited on. -/
def verdicts (tr : List DaemonEntry) : List (ℕ × Bool) :=
  (tr.filterMap answeredAuthorize).map Prod.snd

/-- A notified waiter has yet to look at the entry of `challengeId`. -/
def Awaited (s : DaemonState) (challengeId : ByteString) : Prop :=
  ∃ entry ∈ s.pending.lookup challengeId, entry.authorized = true ∧
    s.waiters entry.notify = .notified

instance (s : DaemonState) (challengeId : ByteString) : Decidable (Awaited s challengeId) :=
  inferInstanceAs (Decidable (∃ entry ∈ s.pending.lookup challengeId, _))

/-- The step loses no approval: it approves only what is waited for, times out no
waiter that was notified, and leaves an awaited entry in place. -/
def KeepsApprovals (x : DaemonEntry) : Prop :=
  match x.pre.handlers x.act.1, x.act.2 with
  | some ⟨_, .verifyApprove v⟩, .approve =>
      ∀ entry ∈ x.pre.pending.lookup v.challengeId,
        DaemonState.matchesEntry v entry = true → x.pre.waiters entry.notify = .waiting
  | some ⟨_, .authorizeWait _ notify⟩, .timeout => x.pre.waiters notify ≠ .notified
  | some ⟨_, .authorizeInsert challengeId _⟩, .insert => ¬ Awaited x.pre challengeId
  | some ⟨_, .authorizeRemove challengeId _ _⟩, .remove => ¬ Awaited x.pre challengeId
  | _, _ => True

instance : DecidablePred KeepsApprovals := by
  intro x
  unfold KeepsApprovals
  split <;> infer_instance

variable (dalek : Dalek)

/-- The task that waits on `notify` answers `true` by the next steps it takes. -/
def Granting (s : DaemonState) (notify : ℕ) : Prop :=
  ∃ conn acts, (acts = [.remove] ∨ acts = [.check, .remove]) ∧
    (notify, true) ∈ verdicts ((daemonMachine dalek).trace s (acts.map (conn, ·)))

/-- **No approval is lost**: an `Authorize` whose entry was approved is not answered
`false`; it has been answered `true` or is about to be. -/
def NoLostApproval (tr : List DaemonEntry) (s : DaemonState) : Prop :=
  ∀ notify ∈ approvedNotifies tr, (notify, false) ∉ verdicts tr ∧
    ((notify, true) ∈ verdicts tr ∨ Granting dalek s notify)

/-- The challenge id and the `Notify` of a task that waits. -/
def Phase.parked : Phase → Option (ByteString × ℕ)
  | .authorizeWait challengeId notify => some (challengeId, notify)
  | _ => none

/-! ## Who is about to answer -/

variable {dalek} {s : DaemonState} {x : DaemonEntry} {tr : List DaemonEntry} {n : ℕ}

theorem phaseAt_eq_some {β : Type} {f : Phase → Option β} {c : Conn} {b : β}
    (h : s.phaseAt f c = some b) : ∃ store p, s.handlers c = some ⟨store, p⟩ ∧ f p = some b := by
  obtain ⟨⟨store, p⟩, hc, hp⟩ := Option.bind_eq_some_iff.mp h
  exact ⟨store, p, hc, hp⟩

theorem parked_handlers {c : Conn} {id : ByteString} (h : s.phaseAt Phase.parked c = some (id, n)) :
    ∃ store, s.handlers c = some ⟨store, .authorizeWait id n⟩ := by
  obtain ⟨store, p, hc, hp⟩ := phaseAt_eq_some h
  cases p <;> cases hp
  exact ⟨store, hc⟩

theorem granted_handlers {c : Conn} (h : s.phaseAt Phase.granted c = some n) :
    ∃ store id, s.handlers c = some ⟨store, .authorizeRemove id n true⟩ := by
  obtain ⟨store, p, hc, hp⟩ := phaseAt_eq_some h
  cases p with
  | authorizeRemove id m authorized =>
      cases authorized <;> cases hp
      exact ⟨store, id, hc⟩
  | _ => cases hp

/-- A verdict is that of a task in its last phase. -/
theorem mem_verdicts_trace_remove {c : Conn}
    (h : (n, true) ∈ verdicts ((daemonMachine dalek).trace s [(c, .remove)])) :
    s.phaseAt Phase.granted c = some n := by
  cases hstep : (daemonMachine dalek).step s (c, .remove) with
  | none => simp [Machine.trace, hstep, verdicts] at h
  | some r =>
      have hdoes : (daemonMachine dalek).Does ⟨s, (c, .remove), r.2, r.1⟩ := hstep
      simp only [Machine.trace, hstep, verdicts, List.mem_map] at h
      obtain ⟨⟨id, m, authorized⟩, hmem, heq⟩ := h
      obtain ⟨rfl, rfl⟩ := Prod.mk.inj heq
      obtain ⟨x, hx, hanswered⟩ := List.mem_filterMap.mp hmem
      rw [List.mem_singleton] at hx
      subst hx
      exact (answeredAuthorize_eq_some hdoes hanswered).2 rfl

/-- The task in its last phase answers. -/
theorem verdicts_trace_remove {c : Conn} (h : s.phaseAt Phase.granted c = some n) :
    (n, true) ∈ verdicts ((daemonMachine dalek).trace s [(c, .remove)]) := by
  obtain ⟨store, id, hc⟩ := granted_handlers h
  simp [Machine.trace, daemonMachine, DaemonState.step, hc, verdicts, answeredAuthorize,
    DaemonState.respond]

/-- **Who is about to answer `true`**: a task that has found its entry authorized, or
has been notified and will. -/
theorem granting_iff :
    Granting dalek s n ↔ (∃ c, s.phaseAt Phase.granted c = some n) ∨
      ∃ c id, s.phaseAt Phase.parked c = some (id, n) ∧ s.waiters n = .notified ∧
        s.isAuthorized id = true := by
  constructor
  · rintro ⟨c, acts, rfl | rfl, h⟩
    · exact Or.inl ⟨c, mem_verdicts_trace_remove h⟩
    · cases hstep : (daemonMachine dalek).step s (c, .check) with
      | none => simp [Machine.trace, hstep, verdicts] at h
      | some r =>
          have hcheck : StepCase dalek s c .check r.1 r.2 := step_case hstep
          have htail : (n, true) ∈ verdicts ((daemonMachine dalek).trace r.1 [(c, .remove)]) := by
            simpa [Machine.trace, hstep, verdicts, answeredAuthorize] using h
          have hgranted := mem_verdicts_trace_remove htail
          obtain ⟨t, out⟩ := r
          simp only at hcheck hgranted
          cases hcheck with
          | quiet hconn hlocal => cases hlocal
          | @check store id m q hconn hnotified hq =>
              rw [DaemonState.phaseAt_goto, hq] at hgranted
              split at hgranted
              · rename_i hauthorized
                cases hgranted
                refine Or.inr ⟨c, id, ?_, hnotified, hauthorized⟩
                rw [DaemonState.phaseAt_some hconn]
                rfl
              · cases hgranted
  · rintro (⟨c, h⟩ | ⟨c, id, hparked, hnotified, hauthorized⟩)
    · exact ⟨c, _, Or.inl rfl, verdicts_trace_remove h⟩
    · obtain ⟨store, hc⟩ := parked_handlers hparked
      refine ⟨c, _, Or.inr rfl, ?_⟩
      have hstep : (daemonMachine dalek).step s (c, .check) = some
          ({ s with waiters := Function.update s.waiters n .absent }.proceed c store
            (.authorizeRemove id n true)) := by
        simp [daemonMachine, DaemonState.step, hc, hnotified, hauthorized]
      have hgranted : ({ s with waiters := Function.update s.waiters n .absent }.goto c store
          (.authorizeRemove id n true)).phaseAt Phase.granted c = some n := by
        simp [Phase.granted]
      simpa [Machine.trace, hstep, verdicts, answeredAuthorize, DaemonState.proceed]
        using verdicts_trace_remove hgranted

/-! ## Who waits -/

variable {vault : Option ByteString}

/-- What a step does to the waiters: one that is there after the step was there
before, and is not of the task that took the step, or that task has just created
it. -/
theorem waiters_step (hdoes : (daemonMachine dalek).Does x) (h : x.post.waiters n ≠ .absent) :
    (x.pre.waiters n ≠ .absent ∧ ∀ id, x.pre.phaseAt Phase.parked x.act.1 ≠ some (id, n)) ∨
      ∃ id, x.post.phaseAt Phase.parked x.act.1 = some (id, n) := by
  have hcase := does_case hdoes
  obtain ⟨pre, ⟨conn, act⟩, out, post⟩ := x
  simp only at hcase h
  cases hcase with
  | accept hconn => exact Or.inl ⟨h, by simp [DaemonState.phaseAt, hconn]⟩
  | quiet hconn hlocal =>
      refine Or.inl ⟨h, ?_⟩
      rw [DaemonState.phaseAt_some hconn]
      cases hlocal <;> simp [Phase.parked]
  | close hconn | store hconn | authorize hconn | insert hconn | remove hconn =>
      exact Or.inl ⟨h, by simp [DaemonState.phaseAt_some hconn, Phase.parked]⟩
  | @listen store id m hconn =>
      by_cases hm : n = m
      · subst hm
        exact Or.inr ⟨id, by simp [Phase.parked]⟩
      · simp only [DaemonState.goto, Function.update_of_ne hm] at h
        exact Or.inl ⟨h, by simp [DaemonState.phaseAt_some hconn, Phase.parked]⟩
  | @check store id m q hconn | @timeout store id m hconn =>
      by_cases hm : n = m
      · simp [DaemonState.goto, hm] at h
      · simp only [DaemonState.goto, Function.update_of_ne hm] at h
        refine Or.inl ⟨h, fun id' => ?_⟩
        rw [DaemonState.phaseAt_some hconn]
        simp [Phase.parked, Ne.symm hm]
  | @approve store v entry hconn =>
      refine Or.inl ⟨fun habsent => h ?_, by simp [DaemonState.phaseAt_some hconn, Phase.parked]⟩
      simp only at habsent
      by_cases hm : n = entry.notify
      · subst hm
        simp [DaemonState.goto, DaemonState.approved, habsent, Waiter.notifyWaiters]
      · simp only [DaemonState.goto, DaemonState.approved, Function.update_of_ne hm]
        exact habsent

/-- **A waiter that exists is that of a task that waits.** -/
theorem parked_run (hrun : Run (daemonMachine dalek) (DaemonState.initial vault) tr s) :
    ∀ n, s.waiters n ≠ .absent → ∃ c id, s.phaseAt Phase.parked c = some (id, n) := by
  refine Run.invariant (P := fun s => ∀ n, s.waiters n ≠ .absent →
    ∃ c id, s.phaseAt Phase.parked c = some (id, n)) hrun ?_ ?_
  · intro n h
    exact absurd rfl h
  · intro x hdoes ih n h
    rcases waiters_step hdoes h with ⟨hpre, hother⟩ | ⟨id, hparked⟩
    · obtain ⟨c, id, hparked⟩ := ih n hpre
      refine ⟨c, id, ?_⟩
      have hc : c ≠ x.act.1 := by
        rintro rfl
        exact hother id hparked
      rw [frame_step hdoes _ hc]
      exact hparked
    · exact ⟨x.act.1, id, hparked⟩

theorem shown_of_parked {c : Conn} {id : ByteString}
    (h : s.phaseAt Phase.parked c = some (id, n)) : s.phaseAt Phase.shown c = some (id, n) := by
  refine DaemonState.phaseAt_imp (k := fun q => q) (fun p q hp => ?_) h
  cases p <;> cases hp
  rfl

theorem notify_of_parked {c : Conn} {id : ByteString}
    (h : s.phaseAt Phase.parked c = some (id, n)) : s.phaseAt Phase.notify c = some n :=
  notify_of_shown (shown_of_parked h)

theorem notify_of_granted {c : Conn} (h : s.phaseAt Phase.granted c = some n) :
    s.phaseAt Phase.notify c = some n := by
  obtain ⟨store, id, hc⟩ := granted_handlers h
  rw [DaemonState.phaseAt_some hc]
  rfl

/-! ## What keeps an approval -/

/-- The approved entry of `n` is on its way: its task waits, has been notified, and
will find the entry authorized. -/
def OnItsWay (s : DaemonState) (n : ℕ) : Prop :=
  ∃ c id entry, s.phaseAt Phase.parked c = some (id, n) ∧ s.waiters n = .notified ∧
    s.pending.lookup id = some entry ∧ entry.authorized = true ∧ entry.notify = n

/-- The task takes a step of its own: it finds the entry authorized. -/
theorem onItsWay_own {id : ByteString} {entry : PendingAuth}
    (hdoes : (daemonMachine dalek).Does x) (hkeeps : KeepsApprovals x)
    (hparked : x.pre.phaseAt Phase.parked x.act.1 = some (id, n))
    (hnotified : x.pre.waiters n = .notified) (hentry : x.pre.pending.lookup id = some entry)
    (hauthorized : entry.authorized = true) :
    x.post.phaseAt Phase.granted x.act.1 = some n := by
  have hcase := does_case hdoes
  obtain ⟨store, hc⟩ := parked_handlers hparked
  obtain ⟨pre, ⟨conn, act⟩, out, post⟩ := x
  simp only at hcase hc hentry hnotified
  cases hcase with
  | check hconn _ hq =>
      rw [hc] at hconn
      cases hconn
      rw [DaemonState.phaseAt_goto, hq, if_pos]
      · rfl
      · rw [DaemonState.isAuthorized, hentry]
        exact hauthorized
  | timeout hconn =>
      rw [hc] at hconn
      cases hconn
      simp only [KeepsApprovals, hc] at hkeeps
      exact absurd hnotified hkeeps
  | quiet hconn hlocal =>
      rw [hc] at hconn
      cases hconn
      cases hlocal
  | accept hconn | close hconn | store hconn | authorize hconn | insert hconn | listen hconn
  | remove hconn | approve hconn =>
      rw [hc] at hconn
      cases hconn

/-- Another task takes a step: the waiter stays notified and the entry in place. -/
theorem onItsWay_other {c : Conn} {id : ByteString} {entry : PendingAuth}
    (howners : Owners tr x.pre) (hdoes : (daemonMachine dalek).Does x)
    (hkeeps : KeepsApprovals x) (hc : c ≠ x.act.1)
    (hparked : x.pre.phaseAt Phase.parked c = some (id, n))
    (hnotified : x.pre.waiters n = .notified) (hentry : x.pre.pending.lookup id = some entry)
    (hauthorized : entry.authorized = true) (hnotify : entry.notify = n) :
    x.post.waiters n = .notified ∧ x.post.pending.lookup id = some entry := by
  have hcase := does_case hdoes
  -- the `Notify` of the task that steps is another one
  have hother : x.pre.phaseAt Phase.notify x.act.1 ≠ some n := by
    intro h
    exact hc (howners.owned _ _ _ (notify_of_parked hparked) h)
  have hawaited : Awaited x.pre id := ⟨entry, hentry, hauthorized, by rw [hnotify, hnotified]⟩
  obtain ⟨pre, ⟨conn, act⟩, out, post⟩ := x
  simp only at hcase hentry hnotified hother hawaited
  cases hcase with
  | accept hconn | close hconn | quiet hconn hlocal | store hconn | authorize hconn =>
      exact ⟨hnotified, hentry⟩
  | @insert store id' pending hconn =>
      simp only [KeepsApprovals, hconn] at hkeeps
      have hid : id ≠ id' := by
        rintro rfl
        exact hkeeps hawaited
      refine ⟨hnotified, ?_⟩
      simpa only [DaemonState.goto, AList.lookup_insert_ne hid] using hentry
  | @remove store id' m authorized hconn =>
      simp only [KeepsApprovals, hconn] at hkeeps
      have hid : id ≠ id' := by
        rintro rfl
        exact hkeeps hawaited
      refine ⟨hnotified, ?_⟩
      simpa only [DaemonState.goto, AList.lookup_erase_ne hid] using hentry
  | @listen store id' m hconn | @check store id' m q hconn | @timeout store id' m hconn =>
      rw [DaemonState.phaseAt_some hconn] at hother
      have hm : n ≠ m := fun heq => hother (congrArg some heq.symm)
      refine ⟨?_, hentry⟩
      simpa only [DaemonState.goto, Function.update_of_ne hm] using hnotified
  | @approve store v entry' hconn hentry' hmatches =>
      have hid : id ≠ v.challengeId := by
        rintro rfl
        obtain rfl := Option.some.inj (hentry.symm.trans hentry')
        rw [(matchesEntry_eq_true hmatches).2.2] at hauthorized
        cases hauthorized
      refine ⟨?_, ?_⟩
      · by_cases hm : n = entry'.notify
        · simp [DaemonState.goto, DaemonState.approved, ← hm, hnotified, Waiter.notifyWaiters]
        · simpa only [DaemonState.goto, DaemonState.approved, Function.update_of_ne hm]
            using hnotified
      · simpa only [DaemonState.goto, DaemonState.approved, AList.lookup_insert_ne hid]
          using hentry

/-! ## Steps that keep approvals -/

/-- An approved `Authorize` has been answered `true`, or is on the way to it. -/
def OnTrack (tr : List DaemonEntry) (s : DaemonState) (n : ℕ) : Prop :=
  (n, true) ∈ verdicts tr ∨ (∃ c, s.phaseAt Phase.granted c = some n) ∨ OnItsWay s n

theorem verdicts_snoc (tr : List DaemonEntry) (x : DaemonEntry) :
    verdicts (tr ++ [x]) = verdicts tr ++ ((answeredAuthorize x).map Prod.snd).toList := by
  cases h : answeredAuthorize x <;> simp [verdicts, h]

/-- A task that was granted is granted still, or has just answered `true`. -/
theorem granted_step (hdoes : (daemonMachine dalek).Does x) {c : Conn}
    (h : x.pre.phaseAt Phase.granted c = some n) :
    x.post.phaseAt Phase.granted c = some n ∨ (n, true) ∈ verdicts [x] := by
  by_cases hc : c = x.act.1
  · subst hc
    apply Or.inr
    obtain ⟨store, id, hhandler⟩ := granted_handlers h
    have hcase := does_case hdoes
    obtain ⟨pre, ⟨conn, act⟩, out, post⟩ := x
    simp only at hcase hhandler
    cases hcase with
    | remove hconn =>
        rw [hhandler] at hconn
        cases hconn
        simp [verdicts, answeredAuthorize, hhandler]
    | quiet hconn hlocal =>
        rw [hhandler] at hconn
        cases hconn
        cases hlocal
    | accept hconn | close hconn | store hconn | authorize hconn | insert hconn | listen hconn
    | check hconn | timeout hconn | approve hconn =>
        rw [hhandler] at hconn
        cases hconn
  · rw [frame_step hdoes _ hc]
    exact Or.inl h

/-- What is on its way stays so, or is granted. -/
theorem onItsWay_step (howners : Owners tr x.pre) (hdoes : (daemonMachine dalek).Does x)
    (hkeeps : KeepsApprovals x) (h : OnItsWay x.pre n) :
    (∃ c, x.post.phaseAt Phase.granted c = some n) ∨ OnItsWay x.post n := by
  obtain ⟨c, id, entry, hparked, hnotified, hentry, hauthorized, hnotify⟩ := h
  by_cases hc : c = x.act.1
  · subst hc
    exact Or.inl ⟨_, onItsWay_own hdoes hkeeps hparked hnotified hentry hauthorized⟩
  · obtain ⟨hwaiter, hlookup⟩ := onItsWay_other howners hdoes hkeeps hc hparked hnotified hentry
      hauthorized hnotify
    refine Or.inr ⟨c, id, entry, ?_, hwaiter, hlookup, hauthorized, hnotify⟩
    rw [frame_step hdoes _ hc]
    exact hparked

/-- An approval that finds its waiter puts the `Authorize` on its way. -/
theorem onItsWay_approve (hrun : Run (daemonMachine dalek) (DaemonState.initial vault) tr x.pre)
    (hdoes : (daemonMachine dalek).Does x) (hkeeps : KeepsApprovals x) {v : VerifyRequest}
    {entry : PendingAuth} (happroved : approvedVerify x = some (v, entry)) :
    OnItsWay x.post entry.notify := by
  have hinserts := inserts_run hrun
  have happrovals := approvals_run hrun
  have hparks := parked_run hrun
  have hframe : ∀ c, c ≠ x.act.1 →
      x.post.phaseAt Phase.parked c = x.pre.phaseAt Phase.parked c :=
    fun c hc => frame_step hdoes _ hc
  obtain ⟨store, hconn⟩ := approvedVerify_phase hdoes happroved
  have hcase := does_case hdoes
  obtain ⟨pre, ⟨conn, act⟩, out, post⟩ := x
  simp only at *
  cases hcase with
  | @approve store' v' entry' hconn' hentry hmatches =>
      simp only [approvedVerify, hconn', hentry, Option.map_some, Option.some.injEq,
        Prod.mk.injEq] at happroved
      obtain ⟨rfl, rfl⟩ := happroved
      simp only [KeepsApprovals, hconn'] at hkeeps
      have hwaiting := hkeeps entry' hentry hmatches
      -- the waiter is of a task that waits, under the challenge id of the entry
      obtain ⟨c, id, hparked⟩ := hparks entry'.notify (by simp [hwaiting])
      obtain ⟨entry'', hmem, hsame⟩ := hinserts.shown _ _ (shown_of_parked hparked)
      have hid := congrArg Prod.fst
        (hinserts.unique hmem (happrovals.entries _ _ hentry).1 hsame)
      simp only at hid
      subst hid
      have hc : c ≠ conn := by
        rintro rfl
        obtain ⟨_, hc⟩ := parked_handlers hparked
        rw [hconn'] at hc
        cases hc
      refine ⟨c, v'.challengeId, { entry' with authorized := true }, ?_, ?_, ?_, rfl, rfl⟩
      · rw [hframe c hc]
        exact hparked
      · simp [DaemonState.goto, DaemonState.approved, hwaiting, Waiter.notifyWaiters]
      · simp [DaemonState.goto, DaemonState.approved]
  | quiet hconn' hlocal =>
      rw [hconn] at hconn'
      cases hconn'
      cases hlocal
      simp [approvedVerify] at happroved
  | accept hconn' | close hconn' | store hconn' | authorize hconn' | insert hconn' | listen hconn'
  | check hconn' | timeout hconn' | remove hconn' =>
      rw [hconn] at hconn'
      cases hconn'

/-- **Every approved `Authorize` is on track**, if the steps keep approvals. -/
theorem onTrack_run (hrun : Run (daemonMachine dalek) (DaemonState.initial vault) tr s)
    (hkeeps : Along (fun _ x => KeepsApprovals x) tr) :
    ∀ n ∈ approvedNotifies tr, OnTrack tr s n := by
  refine Run.induction (P := fun tr s => ∀ n ∈ approvedNotifies tr, OnTrack tr s n) hrun hkeeps
    ?_ ?_
  · simp [approvedNotifies]
  · intro tr x hpre _ hx hdoes ih n hn
    have hold : OnTrack tr x.pre n → OnTrack (tr ++ [x]) x.post n := by
      rintro (hanswered | ⟨c, hgranted⟩ | hway)
      · apply Or.inl
        rw [verdicts_snoc]
        exact List.mem_append_left _ hanswered
      · rcases granted_step hdoes hgranted with hgranted | hanswered
        · exact Or.inr (Or.inl ⟨c, hgranted⟩)
        · apply Or.inl
          rw [verdicts, List.filterMap_append, List.map_append]
          exact List.mem_append_right _ hanswered
      · exact Or.inr (onItsWay_step (owners_run hpre) hdoes hx hway)
    rw [approvedNotifies_snoc, List.mem_append] at hn
    rcases hn with hn | hn
    · exact hold (ih n hn)
    · cases happroved : approvedVerify x with
      | none => simp [happroved] at hn
      | some p =>
          simp only [happroved, Option.map_some, Option.toList_some, List.mem_singleton] at hn
          subst hn
          exact Or.inr (Or.inr (onItsWay_approve hpre hdoes hx happroved))

/-! ## Steps that lose one -/

/-- The answers are given to tasks that wait on nothing any more. -/
theorem answered_of_verdict {authorized : Bool} (h : (n, authorized) ∈ verdicts tr) :
    n ∈ answeredNotifies tr := by
  rw [verdicts, List.mem_map] at h
  obtain ⟨p, hp, heq⟩ := h
  exact List.mem_map.mpr ⟨p, hp, congrArg Prod.fst heq⟩

/-- A notified waiter was approved; its task waits and is neither answered nor granted. -/
theorem notified_facts (hrun : Run (daemonMachine dalek) (DaemonState.initial vault) tr s)
    (hn : s.waiters n = .notified) :
    ∃ c id, s.phaseAt Phase.parked c = some (id, n) ∧ n ∈ approvedNotifies tr ∧
      n ∉ answeredNotifies tr ∧ ∀ c', s.phaseAt Phase.granted c' ≠ some n := by
  obtain ⟨c, id, hparked⟩ := parked_run hrun n (by simp [hn])
  have howners := owners_run hrun
  refine ⟨c, id, hparked, (approvals_run hrun).notified n hn,
    howners.unanswered c n (notify_of_parked hparked), fun c' hgranted => ?_⟩
  obtain rfl := howners.owned _ _ _ (notify_of_parked hparked) (notify_of_granted hgranted)
  obtain ⟨_, hc⟩ := parked_handlers hparked
  obtain ⟨_, _, hc'⟩ := granted_handlers hgranted
  rw [hc] at hc'
  cases hc'

/-- An awaited entry is awaited by the task that created it. -/
theorem awaited_parked (hrun : Run (daemonMachine dalek) (DaemonState.initial vault) tr s)
    {id : ByteString} (h : Awaited s id) :
    ∃ n c, s.waiters n = .notified ∧ s.phaseAt Phase.parked c = some (id, n) := by
  obtain ⟨entry, hentry, -, hnotified⟩ := h
  obtain ⟨c, id', hparked, -⟩ := notified_facts hrun hnotified
  have hinserts := inserts_run hrun
  obtain ⟨entry', hmem, hsame⟩ := hinserts.shown _ _ (shown_of_parked hparked)
  have hid := congrArg Prod.fst
    (hinserts.unique hmem ((approvals_run hrun).entries _ _ hentry).1 hsame)
  simp only at hid
  subst hid
  exact ⟨_, c, hnotified, hparked⟩

/-- The notified waiter is lost if the step answers nothing to it, does not grant its
task, and leaves it no longer notified or its entry no longer authorized. -/
theorem lost_of_notified (hrun : Run (daemonMachine dalek) (DaemonState.initial vault) tr x.pre)
    (hdoes : (daemonMachine dalek).Does x) (hn : x.pre.waiters n = .notified) {c : Conn}
    {id : ByteString} (hparked : x.pre.phaseAt Phase.parked c = some (id, n))
    (hanswer : ∀ authorized, (n, authorized) ∉ verdicts [x])
    (hgranted : x.post.phaseAt Phase.granted x.act.1 = none)
    (hunparked : x.post.phaseAt Phase.parked x.act.1 = none)
    (hlost : x.post.waiters n ≠ .notified ∨ x.post.isAuthorized id = false) :
    ¬ NoLostApproval dalek (tr ++ [x]) x.post := by
  intro h
  obtain ⟨c', id', hparked', happroved, hanswered, hnot⟩ := notified_facts hrun hn
  have hmem : n ∈ approvedNotifies (tr ++ [x]) := by
    rw [approvedNotifies_snoc]
    exact List.mem_append_left _ happroved
  rcases (h n hmem).2 with hverdict | hgranting
  · rw [verdicts, List.filterMap_append, List.map_append, List.mem_append] at hverdict
    rcases hverdict with hverdict | hverdict
    · exact hanswered (answered_of_verdict hverdict)
    · exact hanswer true hverdict
  · rcases granting_iff.mp hgranting with ⟨d, hd⟩ | ⟨d, id'', hd, hnotified, hauthorized⟩
    · by_cases hconn : d = x.act.1
      · rw [hconn, hgranted] at hd
        cases hd
      · rw [frame_step hdoes _ hconn] at hd
        exact hnot d hd
    · have hconn : d ≠ x.act.1 := by
        rintro rfl
        rw [hunparked] at hd
        cases hd
      rw [frame_step hdoes _ hconn] at hd
      -- the task and its challenge id are the ones before the step
      obtain rfl := (owners_run hrun).owned _ _ _ (notify_of_parked hd) (notify_of_parked hparked)
      rw [hparked] at hd
      obtain ⟨rfl, -⟩ := Prod.mk.inj (Option.some.inj hd)
      rcases hlost with hlost | hlost
      · exact hlost hnotified
      · rw [hauthorized] at hlost
        cases hlost

/-- An approval that finds no waiter is lost. -/
theorem lost_of_unwaited (hrun : Run (daemonMachine dalek) (DaemonState.initial vault) tr x.pre)
    (hdoes : (daemonMachine dalek).Does x) {v : VerifyRequest} {entry : PendingAuth}
    (happroved : approvedVerify x = some (v, entry))
    (hentry : x.pre.pending.lookup v.challengeId = some entry)
    (hunauthorized : entry.authorized = false) (hwaiter : x.pre.waiters entry.notify ≠ .waiting)
    (hpost : x.post.waiters entry.notify = (x.pre.waiters entry.notify).notifyWaiters)
    (hgranted : x.post.phaseAt Phase.granted x.act.1 = none) (hanswer : answeredAuthorize x = none) :
    ¬ NoLostApproval dalek (tr ++ [x]) x.post := by
  intro h
  have happrovals := approvals_run hrun
  have hnew : entry.notify ∉ approvedNotifies tr := by
    rw [← (happrovals.entries _ _ hentry).2, hunauthorized]
    simp
  have habsent : x.pre.waiters entry.notify = .absent := by
    cases hw : x.pre.waiters entry.notify with
    | absent => rfl
    | waiting => exact absurd hw hwaiter
    | notified => exact absurd (happrovals.notified _ hw) hnew
  have hmem : entry.notify ∈ approvedNotifies (tr ++ [x]) := by
    rw [approvedNotifies_snoc, happroved]
    simp
  rcases (h _ hmem).2 with hverdict | hgranting
  · -- an answer `true` before the approval would rest on another approval
    rw [verdicts_snoc, hanswer, Option.map_none, Option.toList_none, List.append_nil] at hverdict
    obtain ⟨⟨id, m, authorized⟩, hp, heq⟩ := List.mem_map.mp hverdict
    obtain ⟨rfl, rfl⟩ := Prod.mk.inj heq
    obtain ⟨y, hy, hyanswered⟩ := List.mem_filterMap.mp hp
    obtain ⟨pre, post, rfl⟩ := List.append_of_mem hy
    obtain ⟨v', entry', hv', -, hsame, -⟩ :=
      matched_run hrun hyanswered
    apply hnew
    rw [approvedNotifies, List.filterMap_append, List.map_append, List.mem_append]
    exact Or.inl (List.mem_map.mpr ⟨_, hv', hsame⟩)
  · rcases granting_iff.mp hgranting with ⟨d, hd⟩ | ⟨_, _, _, hnotified, _⟩
    · by_cases hconn : d = x.act.1
      · rw [hconn, hgranted] at hd
        cases hd
      · rw [frame_step hdoes _ hconn] at hd
        exact hnew (happrovals.granted d _ hd)
    · rw [hpost, habsent] at hnotified
      cases hnotified

/-- **Each excluded step loses an approval.** -/
theorem lost_of_step (hrun : Run (daemonMachine dalek) (DaemonState.initial vault) tr x.pre)
    (hdoes : (daemonMachine dalek).Does x) (hkeeps : ¬ KeepsApprovals x) :
    ¬ NoLostApproval dalek (tr ++ [x]) x.post := by
  have hcase := does_case hdoes
  have hinserts := inserts_run hrun
  obtain ⟨pre, ⟨conn, act⟩, out, post⟩ := x
  simp only at hcase hrun hinserts
  cases hcase with
  | approve hconn hentry hmatches =>
      simp only [KeepsApprovals, hconn, not_forall] at hkeeps
      obtain ⟨entry, hentry', -, hwaiter⟩ := hkeeps
      obtain rfl := Option.some.inj (hentry.symm.trans hentry')
      refine lost_of_unwaited hrun hdoes ?_ hentry (matchesEntry_eq_true hmatches).2.2 hwaiter
        ?_ ?_ ?_
      · simp only [approvedVerify, hconn, hentry, Option.map_some]
      · simp [DaemonState.goto, DaemonState.approved]
      · simp [Phase.granted]
      · simp [answeredAuthorize]
  | @timeout store id m hconn =>
      simp only [KeepsApprovals, hconn, Decidable.not_not, ne_eq] at hkeeps
      have hparked : pre.phaseAt Phase.parked conn = some (id, m) := by
        rw [DaemonState.phaseAt_some hconn]
        rfl
      refine lost_of_notified hrun hdoes hkeeps hparked ?_ ?_ ?_ (Or.inl ?_)
      · simp [verdicts, answeredAuthorize]
      · simp [Phase.granted]
      · simp [Phase.parked]
      · simp [DaemonState.goto]
  | @insert store id pending hconn =>
      simp only [KeepsApprovals, hconn, Decidable.not_not] at hkeeps
      obtain ⟨n, c, hnotified, hparked⟩ := awaited_parked hrun hkeeps
      have hfresh : pending.authorized = false :=
        (hinserts.unseen conn (id, pending) (by rw [DaemonState.phaseAt_some hconn]; rfl)).1
      refine lost_of_notified hrun hdoes hnotified hparked ?_ ?_ ?_ (Or.inr ?_)
      · simp [verdicts, answeredAuthorize]
      · simp [Phase.granted]
      · simp [Phase.parked]
      · simp [DaemonState.isAuthorized, DaemonState.goto, hfresh]
  | @remove store id m authorized hconn =>
      simp only [KeepsApprovals, hconn, Decidable.not_not] at hkeeps
      obtain ⟨n, c, hnotified, hparked⟩ := awaited_parked hrun hkeeps
      refine lost_of_notified hrun hdoes hnotified hparked ?_ ?_ ?_ (Or.inr ?_)
      · -- the task that is answered waits on another `Notify`
        intro b hverdict
        simp only [verdicts, answeredAuthorize, hconn, List.filterMap_cons, List.filterMap_nil,
          List.map_cons, List.map_nil, List.mem_singleton, Prod.mk.injEq] at hverdict
        obtain ⟨rfl, rfl⟩ := hverdict
        obtain rfl := (owners_run hrun).owned c conn n (notify_of_parked hparked)
          (by rw [DaemonState.phaseAt_some hconn]; rfl)
        obtain ⟨_, hc⟩ := parked_handlers hparked
        rw [hconn] at hc
        cases hc
      · simp [Phase.granted]
      · simp [Phase.parked]
      · simp [DaemonState.isAuthorized, DaemonState.goto]
  | quiet hconn hlocal =>
      cases hlocal with
      | unmatched hno =>
          simp only [KeepsApprovals, hconn, not_forall] at hkeeps
          obtain ⟨entry, hentry, hmatches, -⟩ := hkeeps
          rw [hno entry hentry] at hmatches
          cases hmatches
      | _ => simp [KeepsApprovals, hconn] at hkeeps
  | accept hconn => simp [KeepsApprovals, hconn] at hkeeps
  | close hconn | store hconn | authorize hconn | listen hconn | check hconn =>
      simp [KeepsApprovals, hconn] at hkeeps

/-! ## The law -/

/-- Who is on track has no opposite verdict. -/
theorem noLost_of_onTrack (hrun : Run (daemonMachine dalek) (DaemonState.initial vault) tr s)
    (h : OnTrack tr s n) :
    (n, false) ∉ verdicts tr ∧ ((n, true) ∈ verdicts tr ∨ Granting dalek s n) := by
  have howners := owners_run hrun
  have hunanswered : ∀ c, s.phaseAt Phase.notify c = some n → (n, false) ∉ verdicts tr :=
    fun c hc hmem => howners.unanswered c n hc (answered_of_verdict hmem)
  rcases h with hanswered | ⟨c, hgranted⟩ | ⟨c, id, entry, hparked, hnotified, hentry,
    hauthorized, -⟩
  · refine ⟨fun hmem => ?_, Or.inl hanswered⟩
    have honce : ((verdicts tr).map Prod.fst).Nodup := by
      rw [verdicts, List.map_map]
      exact howners.once
    have heq := List.inj_on_of_nodup_map honce hmem hanswered rfl
    cases heq
  · exact ⟨hunanswered c (notify_of_granted hgranted),
      Or.inr (granting_iff.mpr (Or.inl ⟨c, hgranted⟩))⟩
  · refine ⟨hunanswered c (notify_of_parked hparked),
      Or.inr (granting_iff.mpr (Or.inr ⟨c, id, hparked, hnotified, ?_⟩))⟩
    rw [DaemonState.isAuthorized, hentry]
    exact hauthorized

/-- **No approval is lost in a run exactly if its steps keep approvals.** -/
theorem no_lost_approval_iff
    (hrun : Run (daemonMachine dalek) (DaemonState.initial vault) tr s) :
    Along (fun pre x => NoLostApproval dalek (pre ++ [x]) x.post) tr ↔
      Along (fun _ x => KeepsApprovals x) tr := by
  constructor
  · rintro h pre x post rfl
    obtain ⟨hpre, hdoes⟩ := hrun.split
    by_contra hkeeps
    exact lost_of_step hpre hdoes hkeeps (h pre x post rfl)
  · rintro h pre x post rfl n hn
    obtain ⟨hpre, hdoes⟩ := hrun.split
    exact noLost_of_onTrack (hpre.snoc hdoes) (onTrack_run (hpre.snoc hdoes) h.through n hn)

/-- An `Authorize` that waits in time is approved and answers `true`. -/
theorem no_lost_approval_sample :
    approvedNotifies authorizedTrace = [0] ∧ verdicts authorizedTrace = [(0, true)] ∧
      Along (fun pre x => NoLostApproval sampleDalek (pre ++ [x]) x.post) authorizedTrace := by
  have hkeeps : ∀ i : Fin authorizedTrace.length, KeepsApprovals authorizedTrace[i] := by
    decide +kernel
  refine ⟨by decide +kernel, by decide +kernel, ?_⟩
  exact (no_lost_approval_iff (Run.trace _ _ _)).mpr
    (Along.of_take fun i hi => hkeeps ⟨i, hi⟩)

/-- The phone approves before the `Authorize` has created its waiter: it is told
`true`, and the `Authorize`, which is never woken, answers `false` in the end. -/
def lostTrace : List DaemonEntry :=
  daemonTrace (authorizeActs ++ verifyActs ++
    [(2, .approve), (1, .listen), (1, .timeout), (1, .remove)])

theorem no_lost_approval_fails :
    approvedNotifies lostTrace = [0] ∧ verdicts lostTrace = [(0, false)] ∧
      lostTrace.map (fun x => x.out) = List.replicate 7 none ++
        [some (.authorized true), none, none, some (.authorized false)] ∧
      ¬ ∀ vault tr s, Run (daemonMachine sampleDalek) (DaemonState.initial vault) tr s →
        Along (fun pre x => NoLostApproval sampleDalek (pre ++ [x]) x.post) tr := by
  have happroved : approvedNotifies lostTrace = [0] := by decide +kernel
  have hverdicts : verdicts lostTrace = [(0, false)] := by decide +kernel
  have hout : lostTrace.map (fun x => x.out) = List.replicate 7 none ++
      [some (.authorized true), none, none, some (.authorized false)] := by decide +kernel
  refine ⟨happroved, hverdicts, hout, fun h => ?_⟩
  have hrun : Run (daemonMachine sampleDalek) (DaemonState.initial sampleVault) lostTrace _ :=
    Run.trace _ _ _
  have hne : lostTrace ≠ [] := by
    intro hnil
    rw [hnil] at hverdicts
    cases hverdicts
  have hlost := hrun.at_end (P := NoLostApproval sampleDalek) (h _ _ _ hrun) hne
  apply (hlost 0 (by rw [happroved]; exact List.mem_singleton_self _)).1
  rw [hverdicts]
  exact List.mem_singleton_self _

end OpenBioUnlock.Daemon

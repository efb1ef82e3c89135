import Mathlib.Algebra.BigOperators.Group.Finset.Basic
import OpenBioUnlock.Daemon.Approval
import OpenBioUnlock.Daemon.Conversation
import OpenBioUnlock.Daemon.Isolation

/-!
# The daemon at rest

What is left when every request is answered?  A step that no peer decides on makes
progress: it takes something from the load of the tasks (`load_step`), and as long as a
request is under way there is one (`can_step`).  So whatever the schedule, the daemon comes
to rest when no more lines come, and `comes_to_rest` says how it is then: every line has its
answer, the map of pending authentications is empty, and nobody waits.
-/

namespace OpenBioUnlock.Daemon

open Codec Runs

/-! ## Coming to rest -/

/-- The steps a peer decides on: it connects, sends a line, or is gone. -/
def Act.ofPeer : Act → Bool
  | .accept _ | .close | .receive _ _ => true
  | _ => false

/-- The weight of what a task has yet to do.  An approval weighs more than its step, as it
may wake a waiter, and a waiter that is woken may have to listen again. -/
def Phase.load : Phase → ℕ
  | .idle => 0
  | .pairLoad _ _ => 2
  | .pairStore _ _ _ => 1
  | .authorizeInsert _ _ => 4
  | .authorizeListen _ _ => 3
  | .authorizeWait _ _ => 2
  | .authorizeRemove _ _ _ => 1
  | .challenge => 1
  | .verifyLoad _ => 5
  | .verifyCheck _ _ => 4
  | .verifyApprove _ => 3

def Waiter.load : Waiter → ℕ
  | .notified => 2
  | _ => 0

def handlerLoad (handler : Option Handler) : ℕ :=
  (handler.map fun h => h.phase.load).getD 0

/-- What the waiters add. -/
def DaemonState.waitersLoad (s : DaemonState) : ℕ :=
  ∑ n ∈ Finset.range s.notifies, (s.waiters n).load

/-- The load of the tasks of some connections and of the waiters. -/
def DaemonState.load (s : DaemonState) (conns : Finset Conn) : ℕ :=
  ∑ c ∈ conns, handlerLoad (s.handlers c) + s.waitersLoad

/-- A sum in which one value is replaced. -/
theorem sum_update {ι β : Type} [DecidableEq ι] (f : β → ℕ) (g : ι → β) {i : ι} (v : β)
    {t : Finset ι} (hi : i ∈ t) :
    ∑ j ∈ t, f (Function.update g i v j) + f (g i) = ∑ j ∈ t, f (g j) + f v := by
  have hnew := Finset.add_sum_erase t (fun j => f (Function.update g i v j)) hi
  have hold := Finset.add_sum_erase t (fun j => f (g j)) hi
  have hrest : ∑ j ∈ t.erase i, f (Function.update g i v j) = ∑ j ∈ t.erase i, f (g j) := by
    refine Finset.sum_congr rfl fun j hj => ?_
    rw [Function.update_of_ne (Finset.ne_of_mem_erase hj)]
  simp only [Function.update_self] at hnew
  omega

section Rest

variable {dalek : Dalek} {vault : Option ByteString} {tr more : List DaemonEntry}
variable {s t : DaemonState} {x : DaemonEntry} {conn : Conn} {store : Bool} {conns : Finset Conn}
variable {p q : Phase}

/-- The load of a state in which one task has moved. -/
theorem load_lt (hmem : conn ∈ conns) (hconn : s.handlers conn = some ⟨store, p⟩)
    (hmoved : t.handlers = Function.update s.handlers conn (some ⟨store, q⟩))
    (hless : t.waitersLoad + q.load < s.waitersLoad + p.load) : t.load conns < s.load conns := by
  have hsum := sum_update handlerLoad s.handlers (some ⟨store, q⟩) hmem
  have hp : handlerLoad (s.handlers conn) = p.load := by
    rw [hconn]
    rfl
  have hq : handlerLoad (some ⟨store, q⟩) = q.load := rfl
  rw [DaemonState.load, DaemonState.load, hmoved]
  omega

theorem waitersLoad_goto (s : DaemonState) (conn : Conn) (store : Bool) (p : Phase) :
    (s.goto conn store p).waitersLoad = s.waitersLoad := rfl

/-- A waiter that is replaced. -/
theorem waitersLoad_update (s : DaemonState) (n : ℕ) (w : Waiter) :
    ({ s with waiters := Function.update s.waiters n w } : DaemonState).waitersLoad ≤
      s.waitersLoad + w.load := by
  by_cases hn : n ∈ Finset.range s.notifies
  · have hsum := sum_update Waiter.load s.waiters w hn
    simp only [DaemonState.waitersLoad]
    omega
  · refine le_trans (le_of_eq (Finset.sum_congr rfl fun m hm => ?_)) (Nat.le_add_right _ _)
    have hne : m ≠ n := by
      rintro rfl
      exact hn hm
    simp only [Function.update_of_ne hne]

/-- A notification that is consumed. -/
theorem waitersLoad_consumed {n : ℕ} (hn : n < s.notifies) (hnotified : s.waiters n = .notified) :
    ({ s with waiters := Function.update s.waiters n .absent } : DaemonState).waitersLoad + 2 =
      s.waitersLoad := by
  have hsum := sum_update Waiter.load s.waiters .absent (Finset.mem_range.mpr hn)
  rw [hnotified] at hsum
  exact hsum

/-- **A step that no peer decides on lessens the load.** -/
theorem load_step (howners : Owners tr x.pre) (hdoes : (daemonMachine dalek).Does x)
    (hpeer : x.act.2.ofPeer = false) (hmem : x.act.1 ∈ conns) :
    x.post.load conns < x.pre.load conns := by
  have hcase := does_case hdoes
  obtain ⟨pre, ⟨conn, act⟩, out, post⟩ := x
  simp only at hcase hpeer hmem howners ⊢
  have hsame : ∀ {t : DaemonState} {p q : Phase}, t.waitersLoad = pre.waitersLoad →
      q.load < p.load → t.waitersLoad + q.load < pre.waitersLoad + p.load := by
    intro t p q hwaiters hload
    omega
  cases hcase with
  | accept | close | authorize => cases hpeer
  | quiet hconn hlocal =>
      refine load_lt hmem hconn rfl (hsame rfl ?_)
      cases hlocal with
      | refuse | pair | challenge | verify => cases hpeer
      | _ => simp [Phase.load]
  | store hconn | insert hconn | remove hconn =>
      exact load_lt hmem hconn rfl (hsame rfl (by simp [Phase.load]))
  | @listen _ challengeId notify hconn =>
      have hwaiters := waitersLoad_update pre notify .waiting
      refine load_lt hmem hconn rfl (Nat.lt_of_le_of_lt (Nat.add_le_add_right hwaiters _) ?_)
      simp [Phase.load, Waiter.load]
  | @check _ challengeId notify q hconn hnotified hq =>
      -- the notification is consumed, which pays for listening again
      have hallocated := howners.allocated _ notify (DaemonState.phaseAt_some hconn)
      have hconsumed := waitersLoad_consumed hallocated hnotified
      have hq : q.load ≤ 3 := by
        rw [hq]
        split <;> simp [Phase.load]
      have hwait : (Phase.authorizeWait challengeId notify).load = 2 := rfl
      refine load_lt hmem hconn rfl ?_
      rw [waitersLoad_goto]
      omega
  | @timeout _ challengeId notify hconn =>
      have hwaiters := waitersLoad_update pre notify .absent
      refine load_lt hmem hconn rfl (Nat.lt_of_le_of_lt (Nat.add_le_add_right hwaiters _) ?_)
      simp [Phase.load, Waiter.load]
  | @approve _ v entry hconn hentry hmatches =>
      have hwaiters := waitersLoad_update pre entry.notify (pre.waiters entry.notify).notifyWaiters
      have hwoken : (pre.waiters entry.notify).notifyWaiters.load ≤ 2 := by
        cases pre.waiters entry.notify <;> simp [Waiter.notifyWaiters, Waiter.load]
      refine load_lt hmem hconn rfl (Nat.lt_of_le_of_lt (Nat.add_le_add_right hwaiters _) ?_)
      simp only [Phase.load]
      omega

/-- **A request under way can go on.** -/
theorem can_step (hbusy : ¬ Resting (s.handlers conn)) :
    ∃ act, act.ofPeer = false ∧ ((daemonMachine dalek).step s (conn, act)).isSome := by
  cases hconn : s.handlers conn with
  | none => exact absurd (hconn ▸ resting_none) hbusy
  | some handler =>
      obtain ⟨store, p⟩ := handler
      have hcan : ∀ act, act.ofPeer = false → (s.step dalek conn act).isSome →
          ∃ act, act.ofPeer = false ∧ ((daemonMachine dalek).step s (conn, act)).isSome :=
        fun act hpeer hstep => ⟨act, hpeer, hstep⟩
      cases p with
      | idle => exact absurd (hconn ▸ resting_idle) hbusy
      | pairLoad key pairingCode =>
          refine hcan (.getPassword false) rfl ?_
          simp only [DaemonState.step, hconn]
          rfl
      | pairStore key pairingCode keys =>
          exact hcan (.setPassword false) rfl (by simp [DaemonState.step, hconn])
      | authorizeInsert => exact hcan .insert rfl (by simp [DaemonState.step, hconn])
      | authorizeListen => exact hcan .listen rfl (by simp [DaemonState.step, hconn])
      | authorizeWait => exact hcan .timeout rfl (by simp [DaemonState.step, hconn])
      | authorizeRemove => exact hcan .remove rfl (by simp [DaemonState.step, hconn])
      | challenge =>
          refine hcan (.iterate 0) rfl ?_
          simp only [DaemonState.step, hconn]
          split_ifs with hempty
          · rfl
          · rw [Option.isSome_map, List.getElem?_eq_getElem (List.length_pos_iff.mpr hempty)]
            rfl
      | verifyLoad v => exact hcan (.getPassword false) rfl (by simp [DaemonState.step, hconn])
      | verifyCheck v keys =>
          refine hcan (.checkSignatures fun _ => 0) rfl ?_
          simp only [DaemonState.step, hconn]
          split_ifs <;> rfl
      | verifyApprove v =>
          refine hcan .approve rfl ?_
          simp only [DaemonState.step, hconn]
          split
          · rfl
          · split_ifs <;> rfl

/-- **The daemon is at rest**: every line has its answer, and nothing is left of the
authentications. -/
structure AtRest (tr : List DaemonEntry) (s : DaemonState) : Prop where
  answered : ∀ conn, List.Forall₂ Answers (linesOf conn tr) (responsesOf conn tr)
  noEntry : s.pending = ∅
  noWaiter : ∀ n, s.waiters n = .absent

/-- A task that shows a phase of a request is not resting. -/
theorem phaseAt_resting {β : Type} {f : Phase → Option β} (hf : f .idle = none)
    (hrest : Resting (s.handlers conn)) : s.phaseAt f conn = none := by
  rw [DaemonState.phaseAt]
  cases hconn : s.handlers conn with
  | none => rfl
  | some handler => rw [Option.bind_some, hrest handler hconn, hf]

/-- **With no request under way, the daemon is at rest.** -/
theorem atRest_of_resting (hrun : Run (daemonMachine dalek) (DaemonState.initial vault) tr s)
    (hrest : ∀ conn, Resting (s.handlers conn)) : AtRest tr s where
  answered conn := (converses_run hrun conn).answered (hrest conn)
  noEntry := by
    apply AList.ext
    refine List.eq_nil_iff_forall_not_mem.mpr fun ⟨id, entry⟩ hmem => ?_
    obtain ⟨c, hc⟩ := entry_shown hrun id entry (AList.mem_lookup_iff.mpr hmem)
    rw [phaseAt_resting rfl (hrest c)] at hc
    cases hc
  noWaiter n := by
    by_contra hwaiter
    obtain ⟨c, id, hc⟩ := parked_run hrun n hwaiter
    rw [phaseAt_resting rfl (hrest c)] at hc
    cases hc

/-- The connections that were ever accepted have taken a step. -/
theorem handlers_run (hrun : Run (daemonMachine dalek) (DaemonState.initial vault) tr s) :
    ∀ c, s.handlers c ≠ none → c ∈ (tr.map fun x => x.act.1).toFinset := by
  refine hrun.history (P := fun tr s => ∀ c, s.handlers c ≠ none →
    c ∈ (tr.map fun x => x.act.1).toFinset) (fun c h => absurd rfl h) ?_
  intro tr x _ hdoes ih c h
  simp only [List.map_append, List.toFinset_append, Finset.mem_union]
  by_cases hc : c = x.act.1
  · exact .inr (by simp [hc])
  · rw [handlers_frame hdoes hc] at h
    exact .inl (ih c h)

/-- Only a peer lets a task begin. -/
theorem task_of_step (hdoes : (daemonMachine dalek).Does x) (hpeer : x.act.2.ofPeer = false) :
    x.pre.handlers x.act.1 ≠ none := by
  have hcase := does_case hdoes
  generalize x.post = post, x.act.2 = act, x.out = out at hcase hpeer
  cases hcase with
  | accept => cases hpeer
  | close hconn | quiet hconn | store hconn | authorize hconn | insert hconn | listen hconn
  | check hconn | timeout hconn | remove hconn | approve hconn => simp [hconn]

/-- Without a peer no connection is opened. -/
theorem handlers_kept (hmore : Run (daemonMachine dalek) s more t)
    (hpeer : ∀ x ∈ more, x.act.2.ofPeer = false) :
    ∀ c, t.handlers c ≠ none → s.handlers c ≠ none := by
  have hC : Along (fun _ x => x.act.2.ofPeer = false) more := Along.of_forall_mem hpeer
  refine hmore.induction (P := fun _ t => ∀ c, t.handlers c ≠ none → s.handlers c ≠ none) hC
    (fun _ h => h) ?_
  intro tr x _ _ hpeer hdoes ih c h
  by_cases hc : c = x.act.1
  · subst hc
    exact ih _ (task_of_step hdoes hpeer)
  · rw [handlers_frame hdoes hc] at h
    exact ih c h

/-- A run without a peer is no longer than the load it starts with. -/
theorem length_le_load (hrun : Run (daemonMachine dalek) (DaemonState.initial vault) tr s)
    (hmore : Run (daemonMachine dalek) s more t) (hpeer : ∀ x ∈ more, x.act.2.ofPeer = false) :
    more.length ≤ s.load (tr.map fun x => x.act.1).toFinset := by
  refine le_trans (Nat.le_add_right _ _) (hmore.length_add_le (DaemonState.load · _) ?_)
  rintro pre x post rfl hpre hdoes
  have hbefore : ∀ y ∈ pre, y.act.2.ofPeer = false := fun y hy => hpeer y (by simp [hy])
  have hown : x.act.2.ofPeer = false := hpeer x (by simp)
  refine load_step (owners_run (hrun.append hpre)) hdoes hown (handlers_run hrun _ ?_)
  exact handlers_kept hpre hbefore _ (task_of_step hdoes hown)

/-- **The daemon comes to rest**, whatever the schedule.  From any state it reaches, the
runs without a peer are bounded, and one that cannot go on has left nothing behind. -/
theorem comes_to_rest (hrun : Run (daemonMachine dalek) (DaemonState.initial vault) tr s) :
    (∃ bound, ∀ more t, Run (daemonMachine dalek) s more t →
        (∀ x ∈ more, x.act.2.ofPeer = false) → more.length ≤ bound) ∧
      ∀ more t, Run (daemonMachine dalek) s more t → (∀ x ∈ more, x.act.2.ofPeer = false) →
        (∀ conn act, act.ofPeer = false → (daemonMachine dalek).step t (conn, act) = none) →
          AtRest (tr ++ more) t := by
  refine ⟨⟨_, fun more t hmore hpeer => length_le_load hrun hmore hpeer⟩, ?_⟩
  intro more t hmore _ hstuck
  refine atRest_of_resting (hrun.append hmore) fun conn => ?_
  by_contra hbusy
  obtain ⟨act, hpeer, hcan⟩ := can_step hbusy
  rw [hstuck conn act hpeer] at hcan
  cases hcan

end Rest

/-- The state in which the `Authorize` of connection 1 has its entry in the map, and waits. -/
def waitingState : DaemonState :=
  (daemonMachine sampleDalek).final (DaemonState.initial sampleVault)
    (authorizeActs ++ [(1, .listen)])

theorem comes_to_rest_sample :
    waitingState.pending.entries.length = 1 ∧ waitingState.waiters 0 = .waiting ∧
      ∃ bound, ∀ more t, Run (daemonMachine sampleDalek) waitingState more t →
        (∀ x ∈ more, x.act.2.ofPeer = false) → more.length ≤ bound :=
  ⟨by decide +kernel, by decide +kernel, (comes_to_rest (Run.trace _ _ _)).1⟩

end OpenBioUnlock.Daemon

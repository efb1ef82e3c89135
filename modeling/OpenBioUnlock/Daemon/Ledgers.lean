import OpenBioUnlock.Daemon.ServerSteps

/-!
# What ties an `Authorize` to a `Verify`

An `Authorize` and the `Verify` that lets it succeed meet in a map entry and in a
`Notify`.  The `Notify` is the thread that ties them together: it is allocated for
one `Authorize`, put into one entry, and reached by no other.  Three ledgers
follow it through a run, each an invariant on the history and the state:

* `Owners`: which task waits on which `Notify`, and that each is answered once;
* `Inserts`: that each `Notify` enters the map once, with the challenge id of its
  task;
* `Approvals`: that an entry is approved once, and that a notified waiter was.

They hold whatever the interleaving, and also when challenge ids collide and one
entry replaces another.
-/

namespace OpenBioUnlock.Daemon

open Codec Runs

/-! ## Observations -/

/-- The entry a step makes visible, under its challenge id. -/
def insertedEntry (x : DaemonEntry) : Option (ByteString × PendingAuth) :=
  match x.pre.handlers x.act.1, x.act.2 with
  | some ⟨_, .authorizeInsert challengeId pending⟩, .insert => some (challengeId, pending)
  | _, _ => none

/-- The `Verify` a step answers with `authorized: true`, and the entry it found. -/
def approvedVerify (x : DaemonEntry) : Option (VerifyRequest × PendingAuth) :=
  match x.pre.handlers x.act.1, x.act.2, x.out with
  | some ⟨_, .verifyApprove v⟩, .approve, some (.authorized true) =>
      (x.pre.pending.lookup v.challengeId).map fun entry => (v, entry)
  | _, _, _ => none

/-- The `Authorize` a step answers: its challenge id, its `Notify` and the answer. -/
def answeredAuthorize (x : DaemonEntry) : Option (ByteString × ℕ × Bool) :=
  match x.pre.handlers x.act.1, x.act.2, x.out with
  | some ⟨_, .authorizeRemove challengeId notify _⟩, .remove, some (.authorized authorized) =>
      some (challengeId, notify, authorized)
  | _, _, _ => none

/-- The `Notify` objects of the entries made visible. -/
def insertedNotifies (tr : List DaemonEntry) : List ℕ :=
  (tr.filterMap insertedEntry).map fun p => p.2.notify

/-- The `Notify` objects of the entries approved. -/
def approvedNotifies (tr : List DaemonEntry) : List ℕ :=
  (tr.filterMap approvedVerify).map fun p => p.2.notify

/-- The `Notify` objects of the `Authorize` requests answered. -/
def answeredNotifies (tr : List DaemonEntry) : List ℕ :=
  (tr.filterMap answeredAuthorize).map fun p => p.2.1

/-- The entry a task is about to insert. -/
def Phase.drawn : Phase → Option (ByteString × PendingAuth)
  | .authorizeInsert challengeId pending => some (challengeId, pending)
  | _ => none

/-- The challenge id and the `Notify` of a task whose entry is visible. -/
def Phase.shown : Phase → Option (ByteString × ℕ)
  | .authorizeListen challengeId notify => some (challengeId, notify)
  | .authorizeWait challengeId notify => some (challengeId, notify)
  | .authorizeRemove challengeId notify _ => some (challengeId, notify)
  | _ => none

namespace DaemonState

/-- An observation of the phase the task of `conn` is in. -/
def phaseAt {β : Type} (s : DaemonState) (f : Phase → Option β) (conn : Conn) : Option β :=
  (s.handlers conn).bind fun h => f h.phase

theorem phaseAt_some {β : Type} {s : DaemonState} {f : Phase → Option β} {conn : Conn} {store : Bool}
    {p : Phase} (h : s.handlers conn = some ⟨store, p⟩) : s.phaseAt f conn = f p := by
  rw [phaseAt, h, Option.bind_some]

@[simp] theorem phaseAt_goto {β : Type} (s : DaemonState) (f : Phase → Option β) (conn : Conn)
    (store : Bool) (p : Phase) : (s.goto conn store p).phaseAt f conn = f p := by
  simp [phaseAt, goto]

/-- What a phase shows to one observation it shows to another. -/
theorem phaseAt_imp {β γ : Type} {s : DaemonState} {f : Phase → Option β} {g : Phase → Option γ}
    {k : β → γ} (hfg : ∀ p b, f p = some b → g p = some (k b)) {conn : Conn} {b : β}
    (h : s.phaseAt f conn = some b) : s.phaseAt g conn = some (k b) := by
  obtain ⟨handler, hconn, hp⟩ := Option.bind_eq_some_iff.mp h
  rw [phaseAt, hconn, Option.bind_some]
  exact hfg _ _ hp

end DaemonState

variable {dalek : Dalek} {x : DaemonEntry}

/-- What was observed stays where it is. -/
theorem observed_snoc {β : Type} {f : DaemonEntry → Option β} {tr : List DaemonEntry} {n : ℕ} {b : β}
    (h : (tr.filterMap f)[n]? = some b) : ((tr ++ [x]).filterMap f)[n]? = some b := by
  obtain ⟨hlt, -⟩ := List.getElem?_eq_some_iff.mp h
  rw [List.filterMap_append, List.getElem?_append_left hlt]
  exact h

/-- A step moves the task of its connection only. -/
theorem handlers_frame (hdoes : (daemonMachine dalek).Does x) {c : Conn} (hc : c ≠ x.act.1) :
    x.post.handlers c = x.pre.handlers c := by
  have hcase := does_case hdoes
  generalize x.post = post, x.act.2 = act, x.out = out at hcase
  cases hcase <;> exact Function.update_of_ne hc _ _

theorem frame_step {β : Type} (hdoes : (daemonMachine dalek).Does x) (f : Phase → Option β)
    {c : Conn} (hc : c ≠ x.act.1) : x.post.phaseAt f c = x.pre.phaseAt f c := by
  rw [DaemonState.phaseAt, handlers_frame hdoes hc, DaemonState.phaseAt]

/-! ## Who waits on what -/

/-- **A `Notify` has one task**, which is answered once. -/
structure Owners (tr : List DaemonEntry) (s : DaemonState) : Prop where
  allocated : ∀ c n, s.phaseAt Phase.notify c = some n → n < s.notifies
  owned : ∀ c c' n, s.phaseAt Phase.notify c = some n → s.phaseAt Phase.notify c' = some n →
    c = c'
  unanswered : ∀ c n, s.phaseAt Phase.notify c = some n → n ∉ answeredNotifies tr
  answered : ∀ n ∈ answeredNotifies tr, n < s.notifies
  once : (answeredNotifies tr).Nodup

/-- What a step does to the `Notify` of its task: the task has none after it, keeps
it, is given a new one, or is answered. -/
theorem notify_step (hdoes : (daemonMachine dalek).Does x) :
    (answeredAuthorize x = none ∧ x.post.phaseAt Phase.notify x.act.1 = none ∧
        x.post.notifies = x.pre.notifies) ∨
      (answeredAuthorize x = none ∧
        x.post.phaseAt Phase.notify x.act.1 = x.pre.phaseAt Phase.notify x.act.1 ∧
        x.post.notifies = x.pre.notifies) ∨
      (answeredAuthorize x = none ∧
        x.post.phaseAt Phase.notify x.act.1 = some x.pre.notifies ∧
        x.post.notifies = x.pre.notifies + 1) ∨
      (∃ challengeId n authorized, answeredAuthorize x = some (challengeId, n, authorized) ∧
        x.pre.phaseAt Phase.notify x.act.1 = some n ∧
        x.post.phaseAt Phase.notify x.act.1 = none ∧ x.post.notifies = x.pre.notifies) := by
  have hcase := does_case hdoes
  obtain ⟨pre, ⟨conn, act⟩, out, post⟩ := x
  simp only at hcase
  cases hcase with
  | accept hconn => exact Or.inl ⟨by simp [answeredAuthorize, hconn], by simp [Phase.notify], rfl⟩
  | close hconn =>
      exact Or.inl ⟨by simp [answeredAuthorize], by simp [DaemonState.phaseAt], rfl⟩
  | quiet hconn hlocal =>
      refine Or.inl ⟨?_, by simp [hlocal.notify.2], rfl⟩
      cases hlocal <;> simp [answeredAuthorize, hconn]
  | store hconn => exact Or.inl ⟨by simp [answeredAuthorize], by simp [Phase.notify], rfl⟩
  | approve hconn => exact Or.inl ⟨by simp [answeredAuthorize], by simp [Phase.notify], rfl⟩
  | authorize hconn =>
      exact Or.inr (Or.inr (Or.inl ⟨by simp [answeredAuthorize], by simp [Phase.notify], rfl⟩))
  | insert hconn =>
      refine Or.inr (Or.inl ⟨by simp [answeredAuthorize], ?_, rfl⟩)
      simp [DaemonState.phaseAt_some hconn, Phase.notify]
  | listen hconn =>
      refine Or.inr (Or.inl ⟨by simp [answeredAuthorize], ?_, rfl⟩)
      simp [DaemonState.phaseAt_some hconn, Phase.notify]
  | check hconn hnotified hq =>
      refine Or.inr (Or.inl ⟨by simp [answeredAuthorize], ?_, rfl⟩)
      rw [hq]
      simp only [DaemonState.phaseAt_goto, DaemonState.phaseAt_some hconn]
      split <;> rfl
  | timeout hconn =>
      refine Or.inr (Or.inl ⟨by simp [answeredAuthorize], ?_, rfl⟩)
      simp [DaemonState.phaseAt_some hconn, Phase.notify]
  | @remove store challengeId n authorized hconn =>
      refine Or.inr (Or.inr (Or.inr ⟨challengeId, n, authorized, ?_, ?_, ?_, rfl⟩))
      · simp only [answeredAuthorize, hconn]
      · rw [DaemonState.phaseAt_some hconn]
        rfl
      · simp [Phase.notify]

theorem answeredNotifies_snoc (tr : List DaemonEntry) (x : DaemonEntry) :
    answeredNotifies (tr ++ [x]) =
      answeredNotifies tr ++ ((answeredAuthorize x).map fun p => p.2.1).toList := by
  cases h : answeredAuthorize x <;> simp [answeredNotifies, h]

/-- An `Owners` ledger stays one when the step answers nothing and its task ends up
without a `Notify`, or with the one it had. -/
theorem Owners.of_kept {tr : List DaemonEntry} (h : Owners tr x.pre)
    (hframe : ∀ c, c ≠ x.act.1 →
      x.post.phaseAt Phase.notify c = x.pre.phaseAt Phase.notify c)
    (hkept : ∀ n, x.post.phaseAt Phase.notify x.act.1 = some n →
      x.pre.phaseAt Phase.notify x.act.1 = some n)
    (hnotifies : x.post.notifies = x.pre.notifies) (hnone : answeredAuthorize x = none) :
    Owners (tr ++ [x]) x.post := by
  have hkeep : ∀ c n, x.post.phaseAt Phase.notify c = some n →
      x.pre.phaseAt Phase.notify c = some n := by
    intro c n hc
    by_cases hconn : c = x.act.1
    · subst hconn
      exact hkept n hc
    · rwa [hframe c hconn] at hc
  have hanswered : answeredNotifies (tr ++ [x]) = answeredNotifies tr := by
    rw [answeredNotifies_snoc, hnone]
    simp
  refine ⟨?_, ?_, ?_, ?_, ?_⟩
  · intro c n hc
    rw [hnotifies]
    exact h.allocated c n (hkeep c n hc)
  · intro c c' n hc hc'
    exact h.owned c c' n (hkeep c n hc) (hkeep c' n hc')
  · intro c n hc
    rw [hanswered]
    exact h.unanswered c n (hkeep c n hc)
  · rw [hanswered, hnotifies]
    exact h.answered
  · rw [hanswered]
    exact h.once

/-- It stays one when the task is given a new `Notify`, which belongs to nobody else. -/
theorem Owners.of_new {tr : List DaemonEntry} (h : Owners tr x.pre)
    (hframe : ∀ c, c ≠ x.act.1 →
      x.post.phaseAt Phase.notify c = x.pre.phaseAt Phase.notify c)
    (hnew : x.post.phaseAt Phase.notify x.act.1 = some x.pre.notifies)
    (hnotifies : x.post.notifies = x.pre.notifies + 1) (hnone : answeredAuthorize x = none) :
    Owners (tr ++ [x]) x.post := by
  have hanswered : answeredNotifies (tr ++ [x]) = answeredNotifies tr := by
    rw [answeredNotifies_snoc, hnone]
    simp
  have hcases : ∀ c n, x.post.phaseAt Phase.notify c = some n →
      (c = x.act.1 ∧ n = x.pre.notifies) ∨
        (c ≠ x.act.1 ∧ x.pre.phaseAt Phase.notify c = some n) := by
    intro c n hc
    by_cases hconn : c = x.act.1
    · rw [hconn, hnew] at hc
      exact Or.inl ⟨hconn, (Option.some.inj hc).symm⟩
    · exact Or.inr ⟨hconn, by rwa [hframe c hconn] at hc⟩
  refine ⟨?_, ?_, ?_, ?_, by rw [hanswered]; exact h.once⟩
  · intro c n hc
    rw [hnotifies]
    rcases hcases c n hc with ⟨-, hn⟩ | ⟨-, hc⟩
    · omega
    · exact Nat.lt_succ_of_lt (h.allocated c n hc)
  · intro c c' n hc hc'
    rcases hcases c n hc with ⟨hconn, hn⟩ | ⟨-, hc⟩ <;>
      rcases hcases c' n hc' with ⟨hconn', hn'⟩ | ⟨-, hc'⟩
    · rw [hconn, hconn']
    · exact absurd (h.allocated c' n hc') (by omega)
    · exact absurd (h.allocated c n hc) (by omega)
    · exact h.owned c c' n hc hc'
  · intro c n hc
    rw [hanswered]
    rcases hcases c n hc with ⟨-, hn⟩ | ⟨-, hc⟩
    · intro hmem
      have hlt := h.answered n hmem
      omega
    · exact h.unanswered c n hc
  · intro n hn
    rw [hnotifies]
    rw [hanswered] at hn
    exact Nat.lt_succ_of_lt (h.answered n hn)

/-- It stays one when the task is answered, and waits on nothing any more. -/
theorem Owners.of_answered {tr : List DaemonEntry} (h : Owners tr x.pre)
    (hframe : ∀ c, c ≠ x.act.1 →
      x.post.phaseAt Phase.notify c = x.pre.phaseAt Phase.notify c)
    {challengeId : ByteString} {n : ℕ} {authorized : Bool}
    (hanswered : answeredAuthorize x = some (challengeId, n, authorized))
    (hpre : x.pre.phaseAt Phase.notify x.act.1 = some n)
    (hlost : x.post.phaseAt Phase.notify x.act.1 = none)
    (hnotifies : x.post.notifies = x.pre.notifies) : Owners (tr ++ [x]) x.post := by
  have hsnoc : answeredNotifies (tr ++ [x]) = answeredNotifies tr ++ [n] := by
    rw [answeredNotifies_snoc, hanswered]
    rfl
  have hother : ∀ c m, x.post.phaseAt Phase.notify c = some m →
      c ≠ x.act.1 ∧ x.pre.phaseAt Phase.notify c = some m := by
    intro c m hc
    by_cases hconn : c = x.act.1
    · rw [hconn, hlost] at hc
      cases hc
    · exact ⟨hconn, by rwa [hframe c hconn] at hc⟩
  refine ⟨?_, ?_, ?_, ?_, ?_⟩
  · intro c m hc
    rw [hnotifies]
    exact h.allocated c m (hother c m hc).2
  · intro c c' m hc hc'
    exact h.owned c c' m (hother c m hc).2 (hother c' m hc').2
  · intro c m hc hmem
    obtain ⟨hconn, hc⟩ := hother c m hc
    rw [hsnoc, List.mem_append, List.mem_singleton] at hmem
    rcases hmem with hmem | rfl
    · exact h.unanswered c m hc hmem
    · exact hconn (h.owned _ _ _ hc hpre)
  · intro m hm
    rw [hnotifies]
    rw [hsnoc, List.mem_append, List.mem_singleton] at hm
    rcases hm with hm | rfl
    · exact h.answered m hm
    · exact h.allocated _ _ hpre
  · rw [hsnoc, ← List.concat_eq_append]
    exact List.Nodup.concat (h.unanswered _ _ hpre) h.once

/-- Every step keeps the ledger of owners. -/
theorem owners_step {tr : List DaemonEntry} (hdoes : (daemonMachine dalek).Does x)
    (h : Owners tr x.pre) : Owners (tr ++ [x]) x.post := by
  have hframe : ∀ c, c ≠ x.act.1 →
      x.post.phaseAt Phase.notify c = x.pre.phaseAt Phase.notify c :=
    fun c hc => frame_step hdoes _ hc
  rcases notify_step hdoes with ⟨hnone, hlost, hnotifies⟩ | ⟨hnone, hkept, hnotifies⟩ |
    ⟨hnone, hnew, hnotifies⟩ | ⟨_, n, _, hanswered, hpre, hlost, hnotifies⟩
  · exact h.of_kept hframe (fun n hn => by rw [hlost] at hn; cases hn) hnotifies hnone
  · exact h.of_kept hframe (fun n hn => by rwa [hkept] at hn) hnotifies hnone
  · exact h.of_new hframe hnew hnotifies hnone
  · exact h.of_answered hframe hanswered hpre hlost hnotifies

/-- **Every run keeps the ledger of owners.** -/
theorem owners_run {vault : Option ByteString} {tr : List DaemonEntry} {s : DaemonState}
    (hrun : Run (daemonMachine dalek) (DaemonState.initial vault) tr s) : Owners tr s := by
  refine Run.history (P := Owners) hrun ?_ fun tr x _ hdoes h => owners_step hdoes h
  exact ⟨by simp [DaemonState.phaseAt, DaemonState.initial],
    by simp [DaemonState.phaseAt, DaemonState.initial], by simp [answeredNotifies],
    by simp [answeredNotifies], by simp [answeredNotifies]⟩

/-! ## What enters the map -/

/-- **A `Notify` enters the map once**, in a fresh entry, under the challenge id its
task goes on with. -/
structure Inserts (tr : List DaemonEntry) (s : DaemonState) : Prop where
  unseen : ∀ c p, s.phaseAt Phase.drawn c = some p →
    p.2.authorized = false ∧ p.2.notify ∉ insertedNotifies tr
  inserted : ∀ p ∈ tr.filterMap insertedEntry, p.2.authorized = false ∧ p.2.notify < s.notifies
  once : (insertedNotifies tr).Nodup
  shown : ∀ c p, s.phaseAt Phase.shown c = some p →
    ∃ entry, (p.1, entry) ∈ tr.filterMap insertedEntry ∧ entry.notify = p.2

/-- A task that is about to insert an entry waits on its `Notify`. -/
theorem notify_of_drawn {s : DaemonState} {c : Conn} {p : ByteString × PendingAuth}
    (h : s.phaseAt Phase.drawn c = some p) : s.phaseAt Phase.notify c = some p.2.notify := by
  refine DaemonState.phaseAt_imp (k := fun q => q.2.notify) (fun phase q hq => ?_) h
  cases phase <;> cases hq
  rfl

/-- A task whose entry is visible waits on its `Notify`. -/
theorem notify_of_shown {s : DaemonState} {c : Conn} {id : ByteString} {n : ℕ}
    (h : s.phaseAt Phase.shown c = some (id, n)) : s.phaseAt Phase.notify c = some n := by
  refine DaemonState.phaseAt_imp (k := Prod.snd) (fun phase q hq => ?_) h
  cases phase <;> cases hq <;> rfl

/-- What a step inserts, and what it draws. -/
theorem insert_step (hdoes : (daemonMachine dalek).Does x) :
    (insertedEntry x = none ∧ x.pre.notifies ≤ x.post.notifies ∧
        (∀ p, x.post.phaseAt Phase.drawn x.act.1 = some p →
          p.2.authorized = false ∧ p.2.notify = x.pre.notifies) ∧
        ∀ p, x.post.phaseAt Phase.shown x.act.1 = some p →
          x.pre.phaseAt Phase.shown x.act.1 = some p) ∨
      (∃ p, insertedEntry x = some p ∧ x.pre.phaseAt Phase.drawn x.act.1 = some p ∧
        x.post.phaseAt Phase.drawn x.act.1 = none ∧
        x.post.phaseAt Phase.shown x.act.1 = some (p.1, p.2.notify) ∧
        x.post.notifies = x.pre.notifies) := by
  have hcase := does_case hdoes
  obtain ⟨pre, ⟨conn, act⟩, out, post⟩ := x
  simp only at hcase
  cases hcase with
  | @insert store challengeId pending hconn =>
      refine Or.inr ⟨(challengeId, pending), by simp only [insertedEntry, hconn], ?_, ?_, ?_, rfl⟩
      · rw [DaemonState.phaseAt_some hconn]
        rfl
      · simp [Phase.drawn]
      · simp [Phase.shown]
  | accept hconn | store hconn | approve hconn | remove hconn =>
      exact Or.inl ⟨by simp [insertedEntry], le_rfl, by simp [Phase.drawn], by simp [Phase.shown]⟩
  | close hconn =>
      exact Or.inl ⟨by simp [insertedEntry], le_rfl, by simp [DaemonState.phaseAt],
        by simp [DaemonState.phaseAt]⟩
  | quiet hconn hlocal =>
      refine Or.inl ⟨?_, le_rfl, ?_, ?_⟩ <;> cases hlocal <;>
        simp [insertedEntry, hconn, Phase.drawn, Phase.shown]
  | authorize hconn =>
      refine Or.inl ⟨by simp [insertedEntry], Nat.le_succ _, ?_, by simp [Phase.shown]⟩
      intro p hp
      simp only [DaemonState.phaseAt_goto, Phase.drawn, Option.some.injEq] at hp
      subst hp
      exact ⟨rfl, rfl⟩
  | listen hconn | timeout hconn =>
      refine Or.inl ⟨by simp [insertedEntry], le_rfl, by simp [Phase.drawn], ?_⟩
      intro p hp
      rw [DaemonState.phaseAt_some hconn]
      simpa [Phase.shown] using hp
  | check hconn hnotified hq =>
      refine Or.inl ⟨by simp [insertedEntry], le_rfl, ?_, ?_⟩
      · rw [DaemonState.phaseAt_goto, hq]
        split <;> simp [Phase.drawn]
      · rw [DaemonState.phaseAt_goto, DaemonState.phaseAt_some hconn, hq]
        split <;> exact fun p hp => hp

theorem insertedNotifies_snoc (tr : List DaemonEntry) (x : DaemonEntry) :
    insertedNotifies (tr ++ [x]) =
      insertedNotifies tr ++ ((insertedEntry x).map fun p => p.2.notify).toList := by
  cases h : insertedEntry x <;> simp [insertedNotifies, h]

/-- An `Inserts` ledger stays one when the step inserts nothing, and draws an entry with a
new `Notify` at most. -/
theorem Inserts.of_kept {tr : List DaemonEntry} (h : Inserts tr x.pre)
    (hdoes : (daemonMachine dalek).Does x) (hnone : insertedEntry x = none)
    (hle : x.pre.notifies ≤ x.post.notifies)
    (hdrawn : ∀ p, x.post.phaseAt Phase.drawn x.act.1 = some p →
      p.2.authorized = false ∧ p.2.notify = x.pre.notifies)
    (hshown : ∀ p, x.post.phaseAt Phase.shown x.act.1 = some p →
      x.pre.phaseAt Phase.shown x.act.1 = some p) :
    Inserts (tr ++ [x]) x.post := by
  have hsame : (tr ++ [x]).filterMap insertedEntry = tr.filterMap insertedEntry := by
    simp [List.filterMap_append, hnone]
  have hnotifies : insertedNotifies (tr ++ [x]) = insertedNotifies tr := by
    rw [insertedNotifies, hsame, insertedNotifies]
  refine ⟨?_, ?_, ?_, ?_⟩
  · intro c p hp
    rw [hnotifies]
    by_cases hconn : c = x.act.1
    · subst hconn
      obtain ⟨hfresh, hnew⟩ := hdrawn p hp
      refine ⟨hfresh, fun hmem => ?_⟩
      obtain ⟨q, hq, heq⟩ := List.mem_map.mp hmem
      have hlt := (h.inserted q hq).2
      omega
    · exact h.unseen c p (by rwa [frame_step hdoes _ hconn] at hp)
  · rw [hsame]
    exact fun q hq => ⟨(h.inserted q hq).1, lt_of_lt_of_le (h.inserted q hq).2 hle⟩
  · rw [hnotifies]
    exact h.once
  · intro c q hq
    rw [hsame]
    by_cases hconn : c = x.act.1
    · subst hconn
      exact h.shown _ q (hshown q hq)
    · exact h.shown c q (by rwa [frame_step hdoes _ hconn] at hq)

/-- It stays one when the task inserts the entry it has drawn. -/
theorem Inserts.of_inserted {tr : List DaemonEntry} (h : Inserts tr x.pre)
    (howners : Owners tr x.pre) (hdoes : (daemonMachine dalek).Does x)
    {p : ByteString × PendingAuth} (hinserted : insertedEntry x = some p)
    (hwas : x.pre.phaseAt Phase.drawn x.act.1 = some p)
    (hdrawn : x.post.phaseAt Phase.drawn x.act.1 = none)
    (hshown : x.post.phaseAt Phase.shown x.act.1 = some (p.1, p.2.notify))
    (hnotifies : x.post.notifies = x.pre.notifies) : Inserts (tr ++ [x]) x.post := by
  have hsnoc : (tr ++ [x]).filterMap insertedEntry = tr.filterMap insertedEntry ++ [p] := by
    simp [List.filterMap_append, hinserted]
  have hsnocN : insertedNotifies (tr ++ [x]) = insertedNotifies tr ++ [p.2.notify] := by
    rw [insertedNotifies_snoc, hinserted]
    rfl
  obtain ⟨hfresh, hnew⟩ := h.unseen _ p hwas
  refine ⟨?_, ?_, ?_, ?_⟩
  · intro c q hq
    by_cases hconn : c = x.act.1
    · rw [hconn, hdrawn] at hq
      cases hq
    · rw [frame_step hdoes _ hconn] at hq
      obtain ⟨hqfresh, hqnew⟩ := h.unseen c q hq
      refine ⟨hqfresh, fun hmem => ?_⟩
      rw [hsnocN, List.mem_append, List.mem_singleton] at hmem
      rcases hmem with hmem | heq
      · exact hqnew hmem
      · refine hconn (howners.owned c _ p.2.notify ?_ (notify_of_drawn hwas))
        rw [notify_of_drawn hq, heq]
  · intro q hq
    rw [hnotifies]
    rw [hsnoc, List.mem_append, List.mem_singleton] at hq
    rcases hq with hq | rfl
    · exact h.inserted q hq
    · exact ⟨hfresh, howners.allocated _ _ (notify_of_drawn hwas)⟩
  · rw [hsnocN, ← List.concat_eq_append]
    exact List.Nodup.concat hnew h.once
  · intro c q hq
    rw [hsnoc]
    by_cases hconn : c = x.act.1
    · rw [hconn, hshown] at hq
      obtain rfl := Option.some.inj hq
      exact ⟨p.2, by simp, rfl⟩
    · obtain ⟨entry, hmem, heq⟩ := h.shown c q (by rwa [frame_step hdoes _ hconn] at hq)
      exact ⟨entry, List.mem_append_left _ hmem, heq⟩

/-- Every step keeps the ledger of entries. -/
theorem inserts_step {tr : List DaemonEntry} (howners : Owners tr x.pre)
    (hdoes : (daemonMachine dalek).Does x) (h : Inserts tr x.pre) :
    Inserts (tr ++ [x]) x.post := by
  rcases insert_step hdoes with ⟨hnone, hle, hdrawn, hshown⟩ |
    ⟨p, hinserted, hwas, hdrawn, hshown, hnotifies⟩
  · exact h.of_kept hdoes hnone hle hdrawn hshown
  · exact h.of_inserted howners hdoes hinserted hwas hdrawn hshown hnotifies

/-- **Every run keeps the ledger of entries.** -/
theorem inserts_run {vault : Option ByteString} {tr : List DaemonEntry} {s : DaemonState}
    (hrun : Run (daemonMachine dalek) (DaemonState.initial vault) tr s) : Inserts tr s := by
  refine Run.history (P := Inserts) hrun ?_
    fun tr x hpre hdoes h => inserts_step (owners_run hpre) hdoes h
  exact ⟨by simp [DaemonState.phaseAt, DaemonState.initial], by simp,
    by simp [insertedNotifies], by simp [DaemonState.phaseAt, DaemonState.initial]⟩

/-- Entries with the same `Notify` are one entry. -/
theorem Inserts.unique {tr : List DaemonEntry} {s : DaemonState} (h : Inserts tr s)
    {p q : ByteString × PendingAuth} (hp : p ∈ tr.filterMap insertedEntry)
    (hq : q ∈ tr.filterMap insertedEntry) (hpq : p.2.notify = q.2.notify) : p = q :=
  List.inj_on_of_nodup_map h.once hp hq hpq

/-! ## What is approved -/

/-- The `Notify` of a task that is about to answer `authorized: true`. -/
def Phase.granted : Phase → Option ℕ
  | .authorizeRemove _ notify true => some notify
  | _ => none

/-- **An entry is approved once**, by a `Verify` that matches it, and only what was
approved is notified or granted. -/
structure Approvals (tr : List DaemonEntry) (s : DaemonState) : Prop where
  entries : ∀ challengeId entry, s.pending.lookup challengeId = some entry →
    (challengeId, { entry with authorized := false }) ∈ tr.filterMap insertedEntry ∧
      (entry.authorized = true ↔ entry.notify ∈ approvedNotifies tr)
  approved : ∀ p ∈ tr.filterMap approvedVerify,
    (p.1.challengeId, p.2) ∈ tr.filterMap insertedEntry ∧
      DaemonState.matchesEntry p.1 p.2 = true
  once : (approvedNotifies tr).Nodup
  notified : ∀ n, s.waiters n = .notified → n ∈ approvedNotifies tr
  granted : ∀ c n, s.phaseAt Phase.granted c = some n → n ∈ approvedNotifies tr

/-- A matched entry is not authorized yet. -/
theorem matchesEntry_eq_true {v : VerifyRequest} {entry : PendingAuth}
    (h : DaemonState.matchesEntry v entry = true) :
    entry.nonce.1 = (hexDecode v.nonce).getD [] ∧ entry.timestamp = v.timestamp ∧
      entry.authorized = false := by
  simpa [DaemonState.matchesEntry, and_assoc] using h

/-- Who is notified after another waiter was set, or dropped, was notified before. -/
theorem notified_of_update {waiters : ℕ → Waiter} {m n : ℕ} {w : Waiter} (hw : w ≠ .notified)
    (h : Function.update waiters m w n = .notified) : waiters n = .notified := by
  by_cases hsame : n = m
  · rw [hsame, Function.update_self] at h
    exact absurd h hw
  · rwa [Function.update_of_ne hsame] at h

/-- An entry found after an insertion is the new one, or was there under another id. -/
theorem lookup_insert_cases {pending : SharedState} {id id' : ByteString}
    {entry entry' : PendingAuth} (h : (pending.insert id' entry').lookup id = some entry) :
    id = id' ∧ entry = entry' ∨ id ≠ id' ∧ pending.lookup id = some entry := by
  by_cases hid : id = id'
  · rw [hid, AList.lookup_insert] at h
    exact Or.inl ⟨hid, (Option.some.inj h).symm⟩
  · rw [AList.lookup_insert_ne hid] at h
    exact Or.inr ⟨hid, h⟩

/-- One found after a removal was there under another id. -/
theorem lookup_erase_cases {pending : SharedState} {id id' : ByteString} {entry : PendingAuth}
    (h : (pending.erase id').lookup id = some entry) :
    id ≠ id' ∧ pending.lookup id = some entry := by
  have hid : id ≠ id' := by
    rintro rfl
    rw [AList.lookup_erase] at h
    cases h
  rw [AList.lookup_erase_ne hid] at h
  exact ⟨hid, h⟩

/-- What a step does to the entries, the futures and the grants. -/
theorem approve_step (hdoes : (daemonMachine dalek).Does x) :
    (approvedVerify x = none ∧
        (∀ challengeId entry, x.post.pending.lookup challengeId = some entry →
          x.pre.pending.lookup challengeId = some entry ∨
            insertedEntry x = some (challengeId, entry)) ∧
        (∀ n, x.post.waiters n = .notified → x.pre.waiters n = .notified) ∧
        ∀ n, x.post.phaseAt Phase.granted x.act.1 = some n → x.pre.waiters n = .notified) ∨
      (∃ v entry, approvedVerify x = some (v, entry) ∧ insertedEntry x = none ∧
        x.pre.pending.lookup v.challengeId = some entry ∧
        DaemonState.matchesEntry v entry = true ∧
        x.post.pending = x.pre.pending.insert v.challengeId { entry with authorized := true } ∧
        (∀ n, x.post.waiters n = .notified → x.pre.waiters n = .notified ∨ n = entry.notify) ∧
        x.post.phaseAt Phase.granted x.act.1 = none) := by
  have hcase := does_case hdoes
  obtain ⟨pre, ⟨conn, act⟩, out, post⟩ := x
  simp only at hcase
  cases hcase with
  | @approve store v entry hconn hentry hmatches =>
      refine Or.inr ⟨v, entry, ?_, by simp [insertedEntry], hentry, hmatches, rfl, ?_, ?_⟩
      · simp only [approvedVerify, hconn, hentry, Option.map_some]
      · intro n hn
        by_cases hsame : n = entry.notify
        · exact Or.inr hsame
        · simp only [DaemonState.approved, DaemonState.goto, Function.update_of_ne hsame] at hn
          exact Or.inl hn
      · simp [Phase.granted]
  | accept hconn | store hconn | authorize hconn =>
      exact Or.inl ⟨by simp [approvedVerify], fun _ _ h => Or.inl h, fun _ h => h,
        by simp [Phase.granted]⟩
  | close hconn =>
      exact Or.inl ⟨by simp [approvedVerify], fun _ _ h => Or.inl h, fun _ h => h,
        by simp [DaemonState.phaseAt]⟩
  | quiet hconn hlocal =>
      refine Or.inl ⟨?_, fun _ _ h => Or.inl h, fun _ h => h, ?_⟩ <;> cases hlocal <;>
        simp [approvedVerify, hconn, Phase.granted]
  | @insert store challengeId pending hconn =>
      refine Or.inl ⟨by simp [approvedVerify], ?_, fun _ h => h, by simp [Phase.granted]⟩
      intro id entry hlookup
      rcases lookup_insert_cases hlookup with ⟨rfl, rfl⟩ | ⟨-, hold⟩
      · exact Or.inr (by simp only [insertedEntry, hconn])
      · exact Or.inl hold
  | @remove store challengeId n authorized hconn =>
      exact Or.inl ⟨by simp [approvedVerify],
        fun _ _ hlookup => Or.inl (lookup_erase_cases hlookup).2, fun _ h => h,
        by simp [Phase.granted]⟩
  | listen hconn | timeout hconn =>
      exact Or.inl ⟨by simp [approvedVerify], fun _ _ h => Or.inl h,
        fun _ h => notified_of_update (by simp) h, by simp [Phase.granted]⟩
  | check hconn hnotified hq =>
      refine Or.inl ⟨by simp [approvedVerify], fun _ _ h => Or.inl h,
        fun _ h => notified_of_update (by simp) h, ?_⟩
      intro n hn
      rw [DaemonState.phaseAt_goto, hq] at hn
      split at hn
      · obtain rfl := Option.some.inj hn
        exact hnotified
      · cases hn

theorem approvedNotifies_snoc (tr : List DaemonEntry) (x : DaemonEntry) :
    approvedNotifies (tr ++ [x]) =
      approvedNotifies tr ++ ((approvedVerify x).map fun p => p.2.notify).toList := by
  cases h : approvedVerify x <;> simp [approvedNotifies, h]

/-- What is approved was inserted. -/
theorem Approvals.subset {tr : List DaemonEntry} {s : DaemonState} (h : Approvals tr s) {n : ℕ}
    (hn : n ∈ approvedNotifies tr) : n ∈ insertedNotifies tr := by
  obtain ⟨p, hp, rfl⟩ := List.mem_map.mp hn
  exact List.mem_map.mpr ⟨_, (h.approved p hp).1, rfl⟩

theorem insertedEntry_grow {tr : List DaemonEntry} {p : ByteString × PendingAuth}
    (h : p ∈ tr.filterMap insertedEntry) : p ∈ (tr ++ [x]).filterMap insertedEntry := by
  rw [List.filterMap_append]
  exact List.mem_append_left _ h

/-- An `Approvals` ledger stays one when the step approves nothing: an entry it makes
visible is neither authorized nor approved. -/
theorem Approvals.of_kept {tr : List DaemonEntry} (h : Approvals tr x.pre)
    (hinserts : Inserts tr x.pre) (hdoes : (daemonMachine dalek).Does x)
    (hnone : approvedVerify x = none)
    (hentries : ∀ challengeId entry, x.post.pending.lookup challengeId = some entry →
      x.pre.pending.lookup challengeId = some entry ∨ insertedEntry x = some (challengeId, entry))
    (hwaiters : ∀ n, x.post.waiters n = .notified → x.pre.waiters n = .notified)
    (hgranted : ∀ n, x.post.phaseAt Phase.granted x.act.1 = some n →
      x.pre.waiters n = .notified) : Approvals (tr ++ [x]) x.post := by
  have hsame : (tr ++ [x]).filterMap approvedVerify = tr.filterMap approvedVerify := by
    simp [List.filterMap_append, hnone]
  have hnotifies : approvedNotifies (tr ++ [x]) = approvedNotifies tr := by
    rw [approvedNotifies, hsame, approvedNotifies]
  refine ⟨?_, ?_, by rw [hnotifies]; exact h.once, ?_, ?_⟩
  · intro id e hlookup
    rw [hnotifies]
    rcases hentries id e hlookup with hold | hnew
    · exact ⟨insertedEntry_grow (h.entries id e hold).1, (h.entries id e hold).2⟩
    · rcases insert_step hdoes with ⟨hnoinsert, -⟩ | ⟨p, hinserted, hwas, -⟩
      · rw [hnew] at hnoinsert
        cases hnoinsert
      · obtain rfl := Option.some.inj (hinserted.symm.trans hnew)
        obtain ⟨hfresh, hunseen⟩ := hinserts.unseen _ _ hwas
        obtain ⟨nonce, timestamp, authorized, notify⟩ := e
        simp only at hfresh hunseen
        subst hfresh
        refine ⟨by simp [List.filterMap_append, hnew], ?_⟩
        simp only [Bool.false_eq_true, false_iff]
        exact fun hmem => hunseen (h.subset hmem)
  · rw [hsame]
    exact fun p hp => ⟨insertedEntry_grow (h.approved p hp).1, (h.approved p hp).2⟩
  · intro n hn
    rw [hnotifies]
    exact h.notified n (hwaiters n hn)
  · intro c n hn
    rw [hnotifies]
    by_cases hconn : c = x.act.1
    · subst hconn
      exact h.notified n (hgranted n hn)
    · exact h.granted c n (by rwa [frame_step hdoes _ hconn] at hn)

/-- It stays one when a `Verify` approves the entry it matches. -/
theorem Approvals.of_approved {tr : List DaemonEntry} (h : Approvals tr x.pre)
    (hinserts : Inserts tr x.pre) (hdoes : (daemonMachine dalek).Does x) {v : VerifyRequest}
    {entry : PendingAuth} (hsome : approvedVerify x = some (v, entry))
    (hentry : x.pre.pending.lookup v.challengeId = some entry)
    (hmatches : DaemonState.matchesEntry v entry = true)
    (hpending : x.post.pending =
      x.pre.pending.insert v.challengeId { entry with authorized := true })
    (hwaiters : ∀ n, x.post.waiters n = .notified →
      x.pre.waiters n = .notified ∨ n = entry.notify)
    (hgranted : x.post.phaseAt Phase.granted x.act.1 = none) :
    Approvals (tr ++ [x]) x.post := by
  obtain ⟨-, -, hunauthorized⟩ := matchesEntry_eq_true hmatches
  have hsnoc : approvedNotifies (tr ++ [x]) = approvedNotifies tr ++ [entry.notify] := by
    rw [approvedNotifies_snoc, hsome]
    rfl
  obtain ⟨hinserted, hiff⟩ := h.entries _ _ hentry
  have hself : { entry with authorized := false } = entry := by
    obtain ⟨nonce, timestamp, authorized, notify⟩ := entry
    simp only at hunauthorized
    rw [hunauthorized]
  rw [hself] at hinserted
  have hnew : entry.notify ∉ approvedNotifies tr := by
    rw [← hiff, hunauthorized]
    simp
  refine ⟨?_, ?_, ?_, ?_, ?_⟩
  · intro id e hlookup
    rw [hpending] at hlookup
    rw [hsnoc, List.mem_append, List.mem_singleton]
    rcases lookup_insert_cases hlookup with ⟨rfl, rfl⟩ | ⟨hid, hold⟩
    · exact ⟨by rw [hself]; exact insertedEntry_grow hinserted, by simp⟩
    · obtain ⟨hmem, hother⟩ := h.entries id e hold
      refine ⟨insertedEntry_grow hmem, ?_⟩
      rw [hother]
      constructor
      · exact Or.inl
      · rintro (happroved | hnotify)
        · exact happroved
        · -- the two entries would be one
          have heq := hinserts.unique hmem hinserted hnotify
          exact absurd (congrArg Prod.fst heq) hid
  · intro p hp
    rw [List.filterMap_append, List.mem_append] at hp
    rcases hp with hp | hp
    · exact ⟨insertedEntry_grow (h.approved p hp).1, (h.approved p hp).2⟩
    · simp only [List.filterMap_cons, hsome, List.filterMap_nil, List.mem_singleton] at hp
      subst hp
      exact ⟨insertedEntry_grow hinserted, hmatches⟩
  · rw [hsnoc, ← List.concat_eq_append]
    exact List.Nodup.concat hnew h.once
  · intro n hn
    rw [hsnoc, List.mem_append, List.mem_singleton]
    exact (hwaiters n hn).imp (h.notified n) id
  · intro c n hn
    rw [hsnoc, List.mem_append]
    by_cases hconn : c = x.act.1
    · rw [hconn, hgranted] at hn
      cases hn
    · exact Or.inl (h.granted c n (by rwa [frame_step hdoes _ hconn] at hn))

/-- Every step keeps the ledger of approvals. -/
theorem approvals_step {tr : List DaemonEntry} (hinserts : Inserts tr x.pre)
    (hdoes : (daemonMachine dalek).Does x) (h : Approvals tr x.pre) :
    Approvals (tr ++ [x]) x.post := by
  rcases approve_step hdoes with ⟨hnone, hentries, hwaiters, hgranted⟩ |
    ⟨v, entry, hsome, -, hentry, hmatches, hpending, hwaiters, hgranted⟩
  · exact h.of_kept hinserts hdoes hnone hentries hwaiters hgranted
  · exact h.of_approved hinserts hdoes hsome hentry hmatches hpending hwaiters hgranted

/-- **Every run keeps the ledger of approvals.** -/
theorem approvals_run {vault : Option ByteString} {tr : List DaemonEntry} {s : DaemonState}
    (hrun : Run (daemonMachine dalek) (DaemonState.initial vault) tr s) : Approvals tr s := by
  refine Run.history (P := Approvals) hrun ?_
    fun tr x hpre hdoes h => approvals_step (inserts_run hpre) hdoes h
  exact ⟨by simp [DaemonState.initial], by simp, by simp [approvedNotifies],
    by simp [DaemonState.initial], by simp [DaemonState.phaseAt, DaemonState.initial]⟩

end OpenBioUnlock.Daemon

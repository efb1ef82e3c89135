import OpenBioUnlock.Daemon.Authorization

/-!
# The entries of waiting requests

Each `Authorize` that waits has an entry of its own in the map of pending
authentications, and a step of another `Authorize` does not touch it — as long as
every entry is inserted under a challenge id that the map does not hold yet.

The insertion overwrites silently, and the removal goes by the challenge id alone,
so nothing else protects an entry.  Challenge ids are drawn at random, but the two
draws of an `Authorize` are not treated alike: when the one of the nonce fails the
request is refused, when the one of the challenge id fails the id is all zero.
Two requests that wait with that id share one entry (`isolation_fails`).  As long as
the ids come out all different, nothing of the kind happens
(`insertsFresh_of_distinct`).
-/

namespace OpenBioUnlock.Daemon

open Codec Runs

/-- **Every waiting `Authorize` has its own entry**, with its own `Notify` and the
nonce that was drawn for it. -/
structure Isolated (tr : List DaemonEntry) (s : DaemonState) : Prop where
  entry : ∀ c id n, s.phaseAt Phase.shown c = some (id, n) →
    ∃ pending, s.pending.lookup id = some pending ∧ pending.notify = n ∧
      (tr.filterMap drawnNonce)[n]? = some pending.nonce
  apart : ∀ c c' id n n', s.phaseAt Phase.shown c = some (id, n) →
    s.phaseAt Phase.shown c' = some (id, n') → c = c'

/-- **Isolation along a run**: the requests are isolated after every step, and only a
`Verify` changes the entry of a request that waits on another connection. -/
structure Isolation (tr : List DaemonEntry) : Prop where
  isolated : Along (fun pre x => Isolated (pre ++ [x]) x.post) tr
  undisturbed : ∀ x ∈ tr, x.act.2 ≠ .approve → ∀ c id n, c ≠ x.act.1 →
    x.pre.phaseAt Phase.shown c = some (id, n) →
      x.post.pending.lookup id = x.pre.pending.lookup id

/-- The step inserts no entry under a challenge id that the map holds. -/
def InsertsFresh (x : DaemonEntry) : Prop :=
  ∀ p ∈ insertedEntry x, x.pre.pending.lookup p.1 = none

instance : DecidablePred InsertsFresh := fun x =>
  inferInstanceAs (Decidable (∀ p ∈ insertedEntry x, _))

variable {dalek : Dalek} {vault : Option ByteString} {tr : List DaemonEntry} {s : DaemonState}
variable {x : DaemonEntry}

/-! ## What a step does to the map -/

/-- What a step does to the map, and to the task it belongs to. -/
inductive MapStep (x : DaemonEntry) : Prop
  | insert {id : ByteString} {pending : PendingAuth}
      (hinserted : insertedEntry x = some (id, pending))
      (hbefore : x.pre.phaseAt Phase.shown x.act.1 = none)
      (hafter : x.post.phaseAt Phase.shown x.act.1 = some (id, pending.notify))
      (hpending : x.post.pending = x.pre.pending.insert id pending)
  | remove {id : ByteString} {n : ℕ}
      (hinserted : insertedEntry x = none)
      (hbefore : x.pre.phaseAt Phase.shown x.act.1 = some (id, n))
      (hafter : x.post.phaseAt Phase.shown x.act.1 = none)
      (hpending : x.post.pending = x.pre.pending.erase id)
  | approve {id : ByteString} {pending : PendingAuth} (hact : x.act.2 = .approve)
      (hinserted : insertedEntry x = none)
      (hbefore : x.pre.phaseAt Phase.shown x.act.1 = none)
      (hafter : x.post.phaseAt Phase.shown x.act.1 = none)
      (hlookup : x.pre.pending.lookup id = some pending)
      (hpending : x.post.pending = x.pre.pending.insert id { pending with authorized := true })
  | keep (hinserted : insertedEntry x = none)
      (hshown : x.post.phaseAt Phase.shown x.act.1 = x.pre.phaseAt Phase.shown x.act.1)
      (hpending : x.post.pending = x.pre.pending)

/-- **Every step is one of the four.** -/
theorem map_step (hdoes : (daemonMachine dalek).Does x) : MapStep x := by
  have hcase := does_case hdoes
  obtain ⟨pre, ⟨conn, act⟩, out, post⟩ := x
  simp only at hcase
  cases hcase with
  | insert hconn =>
      refine .insert (by simp only [insertedEntry, hconn]) ?_ ?_ rfl
      · rw [DaemonState.phaseAt_some hconn]
        rfl
      · simp [Phase.shown]
  | @remove _ _ notify _ hconn =>
      refine .remove (n := notify) (by simp [insertedEntry]) ?_ (by simp [Phase.shown]) rfl
      rw [DaemonState.phaseAt_some hconn]
      rfl
  | approve hconn hentry hmatches =>
      refine .approve rfl (by simp [insertedEntry]) ?_ (by simp [Phase.shown]) hentry rfl
      rw [DaemonState.phaseAt_some hconn]
      rfl
  -- what is left does not touch the map, nor what its task shows of it
  | accept hconn =>
      refine .keep (by simp [insertedEntry]) ?_ rfl
      rw [DaemonState.phaseAt_goto, DaemonState.phaseAt, hconn]
      rfl
  | close hconn =>
      refine .keep (by simp [insertedEntry]) ?_ rfl
      rw [DaemonState.phaseAt_some hconn]
      simp [DaemonState.phaseAt, Phase.shown]
  | quiet hconn hlocal =>
      refine .keep ?_ ?_ rfl
      · cases hlocal <;> simp [insertedEntry, hconn]
      · rw [DaemonState.phaseAt_goto, DaemonState.phaseAt_some hconn]
        cases hlocal <;> rfl
  | check hconn hnotified hq =>
      refine .keep (by simp [insertedEntry]) ?_ rfl
      rw [DaemonState.phaseAt_goto, DaemonState.phaseAt_some hconn, hq]
      split <;> rfl
  | store hconn | authorize hconn | listen hconn | timeout hconn =>
      refine .keep (by simp [insertedEntry]) ?_ rfl
      rw [DaemonState.phaseAt_goto, DaemonState.phaseAt_some hconn]
      rfl

/-- **Every entry has its task.**  This holds whatever ids are drawn: an entry that
replaces another takes its place, and a task that removes an entry under its id
removes its own with it. -/
theorem entry_shown (hrun : Run (daemonMachine dalek) (DaemonState.initial vault) tr s) :
    ∀ id pending, s.pending.lookup id = some pending →
      ∃ c, s.phaseAt Phase.shown c = some (id, pending.notify) := by
  apply hrun.invariant (P := fun s => ∀ id pending, s.pending.lookup id = some pending →
    ∃ c, s.phaseAt Phase.shown c = some (id, pending.notify)) (by simp [DaemonState.initial])
  intro x hdoes ih id pending hlookup
  have hother : ∀ c, c ≠ x.act.1 → x.post.phaseAt Phase.shown c = x.pre.phaseAt Phase.shown c :=
    fun c hc => frame_step hdoes _ hc
  -- the task of an entry that was there before is in place unless it has moved
  have hold : ∀ c m, x.pre.phaseAt Phase.shown c = some (id, m) → c ≠ x.act.1 →
      ∃ c, x.post.phaseAt Phase.shown c = some (id, m) :=
    fun c m hc hne => ⟨c, by rwa [hother c hne]⟩
  rcases map_step hdoes with @⟨id', pending', -, hbefore, hafter, hpending⟩ |
    @⟨id', n', -, hbefore, hafter, hpending⟩ | @⟨id', pending', -, -, hbefore, hafter, hwas, hpending⟩ |
    ⟨-, hshown, hpending⟩
  · rw [hpending] at hlookup
    rcases lookup_insert_cases hlookup with ⟨rfl, rfl⟩ | ⟨-, hlookup⟩
    · exact ⟨_, hafter⟩
    · obtain ⟨c, hc⟩ := ih id pending hlookup
      exact hold c _ hc fun heq => by rw [heq, hbefore] at hc; cases hc
  · rw [hpending] at hlookup
    obtain ⟨hid, hlookup⟩ := lookup_erase_cases hlookup
    obtain ⟨c, hc⟩ := ih id pending hlookup
    refine hold c _ hc fun heq => hid ?_
    rw [heq, hbefore] at hc
    cases hc
    rfl
  · have hpre : ∃ c, x.pre.phaseAt Phase.shown c = some (id, pending.notify) := by
      rw [hpending] at hlookup
      rcases lookup_insert_cases hlookup with ⟨rfl, rfl⟩ | ⟨-, hlookup⟩
      · exact ih id pending' hwas
      · exact ih id pending hlookup
    obtain ⟨c, hc⟩ := hpre
    exact hold c _ hc fun heq => by rw [heq, hbefore] at hc; cases hc
  · rw [hpending] at hlookup
    obtain ⟨c, hc⟩ := ih id pending hlookup
    by_cases hne : c = x.act.1
    · exact ⟨c, by rw [hne, hshown, ← hne]; exact hc⟩
    · exact hold c _ hc hne

/-! ## Isolation -/

/-- A step of another task leaves the entry of a task alone, or sets its flag. -/
theorem entry_other (hdoes : (daemonMachine dalek).Does x) (hfresh : InsertsFresh x)
    (h : Isolated tr x.pre) {c : Conn} (hc : c ≠ x.act.1) {id : ByteString} {n : ℕ}
    (hshown : x.pre.phaseAt Phase.shown c = some (id, n)) :
    x.post.pending.lookup id = x.pre.pending.lookup id ∨
      x.act.2 = .approve ∧ ∃ pending, x.pre.pending.lookup id = some pending ∧
        x.post.pending.lookup id = some { pending with authorized := true } := by
  rcases map_step hdoes with @⟨id', pending', hinserted, -, -, hpending⟩ |
    @⟨id', n', -, hbefore, -, hpending⟩ | @⟨id', pending', hact, -, -, -, hwas, hpending⟩ |
    ⟨-, -, hpending⟩
  · -- the new entry has another id, since the map holds this one
    have hid : id ≠ id' := by
      rintro rfl
      obtain ⟨pending, hlookup, -⟩ := h.entry c id n hshown
      rw [hfresh _ hinserted] at hlookup
      cases hlookup
    exact Or.inl (by rw [hpending, AList.lookup_insert_ne hid])
  · have hid : id ≠ id' := by
      rintro rfl
      exact hc (h.apart _ _ _ _ _ hshown hbefore)
    exact Or.inl (by rw [hpending, AList.lookup_erase_ne hid])
  · by_cases hid : id = id'
    · subst hid
      exact Or.inr ⟨hact, pending', hwas, by rw [hpending, AList.lookup_insert]⟩
    · exact Or.inl (by rw [hpending, AList.lookup_insert_ne hid])
  · exact Or.inl (by rw [hpending])

/-- What the task of a step that inserts nothing shows after it, it showed before, and
the map is as it was. -/
theorem shown_kept (hdoes : (daemonMachine dalek).Does x) {id : ByteString} {n : ℕ}
    (hshown : x.post.phaseAt Phase.shown x.act.1 = some (id, n)) :
    (∃ pending, insertedEntry x = some (id, pending) ∧ pending.notify = n ∧
        x.post.pending = x.pre.pending.insert id pending) ∨
      x.pre.phaseAt Phase.shown x.act.1 = some (id, n) ∧ insertedEntry x = none ∧
        x.post.pending = x.pre.pending := by
  rcases map_step hdoes with @⟨id', pending', hinserted, -, hafter, hpending⟩ |
    @⟨-, -, -, -, hafter, -⟩ | @⟨-, -, -, -, -, hafter, -, -⟩ | ⟨hinserted, hkept, hpending⟩
  · rw [hafter] at hshown
    cases hshown
    exact Or.inl ⟨pending', hinserted, rfl, hpending⟩
  · rw [hafter] at hshown
    cases hshown
  · rw [hafter] at hshown
    cases hshown
  · exact Or.inr ⟨by rw [← hkept]; exact hshown, hinserted, hpending⟩

/-- **A step that inserts fresh keeps the requests isolated.** -/
theorem isolated_step (hrun : Run (daemonMachine dalek) (DaemonState.initial vault) tr x.pre)
    (hdoes : (daemonMachine dalek).Does x) (hfresh : InsertsFresh x) (h : Isolated tr x.pre) :
    Isolated (tr ++ [x]) x.post := by
  have hother : ∀ c, c ≠ x.act.1 → x.post.phaseAt Phase.shown c = x.pre.phaseAt Phase.shown c :=
    fun c hc => frame_step hdoes _ hc
  have hentry : ∀ c id n, x.post.phaseAt Phase.shown c = some (id, n) →
      ∃ pending, x.post.pending.lookup id = some pending ∧ pending.notify = n ∧
        ((tr ++ [x]).filterMap drawnNonce)[n]? = some pending.nonce := by
    intro c id n hshown
    by_cases hc : c = x.act.1
    · subst hc
      rcases shown_kept hdoes hshown with ⟨pending, hinserted, hnotify, hpending⟩ |
        ⟨hbefore, -, hpending⟩
      · refine ⟨pending, by rw [hpending, AList.lookup_insert], hnotify, ?_⟩
        have hmem : (id, pending) ∈ (tr ++ [x]).filterMap insertedEntry := by
          simp [List.filterMap_append, hinserted]
        rw [← hnotify]
        exact (nonces_run (hrun.snoc hdoes)).inserted _ hmem
      · obtain ⟨pending, hlookup, hnotify, hnonce⟩ := h.entry _ id n hbefore
        exact ⟨pending, by rw [hpending]; exact hlookup, hnotify, observed_snoc hnonce⟩
    · rw [hother c hc] at hshown
      obtain ⟨pending, hlookup, hnotify, hnonce⟩ := h.entry c id n hshown
      rcases entry_other hdoes hfresh h hc hshown with hsame | ⟨-, pending', hwas, hset⟩
      · exact ⟨pending, by rw [hsame]; exact hlookup, hnotify, observed_snoc hnonce⟩
      · obtain rfl := Option.some.inj (hlookup.symm.trans hwas)
        exact ⟨_, hset, hnotify, observed_snoc hnonce⟩
  refine ⟨hentry, ?_⟩
  -- two tasks with one id have one entry, and so one `Notify`
  intro c c' id n n' hc hc'
  obtain ⟨pending, hlookup, hnotify, -⟩ := hentry c id n hc
  obtain ⟨pending', hlookup', hnotify', -⟩ := hentry c' id n' hc'
  obtain rfl := Option.some.inj (hlookup.symm.trans hlookup')
  have hn : n = n' := hnotify.symm.trans hnotify'
  exact (owners_run (hrun.snoc hdoes)).owned c c' n (notify_of_shown hc)
    (hn ▸ notify_of_shown hc')

/-- **Runs that insert fresh are isolated throughout.** -/
theorem isolated_run (hrun : Run (daemonMachine dalek) (DaemonState.initial vault) tr s)
    (hfresh : Along (fun _ x => InsertsFresh x) tr) : Isolated tr s := by
  refine hrun.induction (P := Isolated) hfresh ?_ ?_
  · exact ⟨by simp [DaemonState.phaseAt, DaemonState.initial],
      by simp [DaemonState.phaseAt, DaemonState.initial]⟩
  · intro tr x hpre _ hx hdoes h
    exact isolated_step hpre hdoes hx h

/-- An entry that is replaced leaves its task without one. -/
theorem not_isolated_of_replaced
    (hrun : Run (daemonMachine dalek) (DaemonState.initial vault) tr x.pre)
    (hdoes : (daemonMachine dalek).Does x) (hreplaces : ¬ InsertsFresh x) :
    ¬ Isolated (tr ++ [x]) x.post := by
  intro h
  simp only [InsertsFresh, not_forall] at hreplaces
  obtain ⟨⟨id, pending⟩, hinserted, hheld⟩ := hreplaces
  obtain ⟨old, hold⟩ := Option.ne_none_iff_exists'.mp hheld
  obtain ⟨c, hc⟩ := entry_shown hrun id old hold
  rcases map_step hdoes with ⟨hinserted', hbefore, hafter, -⟩ | ⟨hnone, -, -, -⟩ |
    ⟨-, hnone, -, -, -, -⟩ | ⟨hnone, -, -⟩
  · -- the task of the old entry still goes by the id, and so does that of the new one
    obtain ⟨rfl, rfl⟩ := Prod.mk.inj (Option.some.inj (hinserted.symm.trans hinserted'))
    have hne : c ≠ x.act.1 := by
      rintro rfl
      rw [hbefore] at hc
      cases hc
    have hstill : x.post.phaseAt Phase.shown c = some (id, old.notify) := by
      rw [frame_step hdoes _ hne]
      exact hc
    exact hne (h.apart _ _ _ _ _ hstill hafter)
  all_goals
    rw [hnone] at hinserted
    cases hinserted

/-- **Waiting requests are isolated in a run exactly if it inserts no entry under a
challenge id that the map holds.** -/
theorem isolation_iff (hrun : Run (daemonMachine dalek) (DaemonState.initial vault) tr s) :
    Isolation tr ↔ Along (fun _ x => InsertsFresh x) tr := by
  constructor
  · rintro h pre x post rfl
    obtain ⟨hpre, hdoes⟩ := hrun.split
    by_contra hreplaces
    exact not_isolated_of_replaced hpre hdoes hreplaces (h.isolated pre x post rfl)
  · intro hfresh
    refine ⟨?_, ?_⟩
    · rintro pre x post rfl
      obtain ⟨hpre, hdoes⟩ := hrun.split
      exact isolated_step hpre hdoes (hfresh pre x post rfl) (isolated_run hpre hfresh.of_append)
    · intro x hx hact c id n hc hshown
      obtain ⟨pre, post, rfl⟩ := List.append_of_mem hx
      obtain ⟨hpre, hdoes⟩ := hrun.split
      have hisolated := isolated_run hpre hfresh.of_append
      rcases entry_other hdoes (hfresh pre x post rfl) hisolated hc hshown with hsame | ⟨happrove, -⟩
      · exact hsame
      · exact absurd happrove hact

/-- **Requests whose challenge ids are drawn all different are isolated.** -/
theorem insertsFresh_of_distinct (hrun : Run (daemonMachine dalek) (DaemonState.initial vault) tr s)
    (hdistinct : ((tr.filterMap drawnEntry).map Prod.fst).Nodup) :
    Along (fun _ x => InsertsFresh x) tr := by
  rintro pre x post rfl ⟨id, pending⟩ hinserted
  obtain ⟨hpre, hdoes⟩ := hrun.split
  by_contra hheld
  obtain ⟨old, hold⟩ := Option.ne_none_iff_exists'.mp hheld
  obtain ⟨c, hshown⟩ := entry_shown hpre id old hold
  have hdrawn := drawnEntries_run hpre
  -- the two entries were drawn with one id, so they are one
  obtain ⟨entry, hentry, hnotify⟩ := (inserts_run hpre).shown c _ hshown
  have hother := hdrawn.inserted _ hentry
  rcases insert_step hdoes with ⟨hnone, -⟩ | ⟨p, hp, hwas, -⟩
  · rw [hnone] at hinserted
    cases hinserted
  · obtain rfl := Option.some.inj (hp.symm.trans hinserted)
    have hown := hdrawn.drawn _ _ hwas
    have hnodup : ((pre.filterMap drawnEntry).map Prod.fst).Nodup := by
      rw [List.filterMap_append, List.map_append] at hdistinct
      exact (List.nodup_append.mp hdistinct).1
    have hsame : pending.notify = entry.notify := by
      refine (List.getElem?_inj ?_ hnodup).mp ?_
      · rw [List.length_map]
        exact (List.getElem?_eq_some_iff.mp hown).1
      · rw [List.getElem?_map, List.getElem?_map, hown, hother]
        rfl
    -- and their task is about to insert the entry that is there
    have hc : c = x.act.1 := by
      apply (owners_run hpre).owned c _ old.notify (notify_of_shown hshown)
      rw [notify_of_drawn hwas, hsame, hnotify]
    obtain ⟨handler, hconn, hphase⟩ := Option.bind_eq_some_iff.mp hwas
    rw [hc, DaemonState.phaseAt, hconn, Option.bind_some] at hshown
    cases hp' : handler.phase <;> rw [hp'] at hphase hshown <;> cases hphase
    cases hshown

/-- Two requests on connections 1 and 3 that both come to wait, the second one with
the given draw of the challenge id; the first one times out. -/
def waitingActs (challengeId : Option (ByteArr 32)) : List (Conn × Act) :=
  authorizeActs ++
    [(3, .accept true),
      (3, .receive (.ok (.authorize (ascii "user"))) ⟨.ok (.replicate 32 2), challengeId, 1001⟩),
      (3, .insert), (1, .listen), (3, .listen), (1, .timeout), (1, .remove)]

def twoWaiting (challengeId : Option (ByteArr 32)) : List DaemonEntry :=
  daemonTrace (waitingActs challengeId)

theorem isolation_sample :
    insertedNotifies (twoWaiting (some (.replicate 32 7))) = [0, 1] ∧
      answeredNotifies (twoWaiting (some (.replicate 32 7))) = [0] ∧
      Isolation (twoWaiting (some (.replicate 32 7))) := by
  have hfresh : ∀ i : Fin (twoWaiting (some (.replicate 32 7))).length,
      InsertsFresh (twoWaiting (some (.replicate 32 7)))[i] := by
    decide +kernel
  have hrun : Run (daemonMachine sampleDalek) (DaemonState.initial sampleVault)
      (twoWaiting (some (.replicate 32 7))) _ := Run.trace _ _ _
  refine ⟨by decide +kernel, by decide +kernel, ?_⟩
  exact (isolation_iff hrun).mpr (Along.of_take fun i hi => hfresh ⟨i, hi⟩)

/-- Both draws of a challenge id fail: the second entry replaces the first, and when
the first request times out it removes the entry of the second. -/
theorem isolation_fails :
    (twoWaiting none).filterMap insertedEntry =
        [(hexEncode (List.replicate 32 0), ⟨sampleNonce, 1000, false, 0⟩),
          (hexEncode (List.replicate 32 0), ⟨.replicate 32 2, 1001, false, 1⟩)] ∧
      (twoWaiting none).map (fun x => x.post.pending.entries.map fun p => p.2.notify) =
        [[], [], [0], [0], [0], [1], [1], [1], [1], []] ∧
      ¬ ∀ vault tr s, Run (daemonMachine sampleDalek) (DaemonState.initial vault) tr s →
        Isolation tr := by
  have hentries : (twoWaiting none).map (fun x => x.post.pending.entries.map fun p => p.2.notify) =
      [[], [], [0], [0], [0], [1], [1], [1], [1], []] := by decide +kernel
  refine ⟨by decide +kernel, hentries, fun h => ?_⟩
  have hrun : Run (daemonMachine sampleDalek) (DaemonState.initial sampleVault) (twoWaiting none)
      ((daemonMachine sampleDalek).final (DaemonState.initial sampleVault) (waitingActs none)) :=
    Run.trace _ _ _
  have hne : twoWaiting none ≠ [] := by
    intro hnil
    rw [hnil] at hentries
    cases hentries
  have hisolated := hrun.at_end (P := Isolated) (h _ _ _ hrun).isolated hne
  obtain ⟨pending, hlookup, -⟩ :=
    hisolated.entry 3 (hexEncode (List.replicate 32 0)) 1 (by decide +kernel)
  have hgone : ((daemonMachine sampleDalek).final (DaemonState.initial sampleVault)
      (waitingActs none)).pending.lookup (hexEncode (List.replicate 32 0)) = none := by
    decide +kernel
  rw [hgone] at hlookup
  cases hlookup

end OpenBioUnlock.Daemon

import OpenBioUnlock.Daemon.Ledgers

/-!
# What an authorization rests on

`AuthorizationSound` says, for a run, what an answer `authorized: true` rests on.
Outside a `Verify` it answers an `Authorize`, and that rests on a `Verify` of its own,
which named its challenge id, carried the nonce and the timestamp of its own entry, and
whose signature was checked, fresh, under a key that this very `Verify` had loaded.

Most of it is in the ledgers.  What they leave out is followed here: the steps a
`Verify` took before it approved (`VerifyHistory`), and which nonce was drawn for
which `Notify` (`Nonces`), which is what makes one signature good for one
`Authorize` only.
-/

namespace OpenBioUnlock.Daemon

open Codec Runs

/-- The steps of one connection's task. -/
def stepsOf (conn : Conn) (tr : List DaemonEntry) : List DaemonEntry :=
  tr.filter fun x => x.act.1 = conn

/-- The nonce drawn by an `Authorize` that starts. -/
def drawnNonce (x : DaemonEntry) : Option (ByteArr 32) :=
  match x.act.2, x.out with
  | .receive (.ok (.authorize _)) draws, none => draws.nonce.toOption
  | _, _ => none

/-- The nonce and the timestamp a `Verify` carries. -/
def VerifyRequest.signed (v : VerifyRequest) : ByteString × UInt64 :=
  ((hexDecode v.nonce).getD [], v.timestamp)

/-- The step receives the `Verify`. -/
def Receives (x : DaemonEntry) (v : VerifyRequest) : Prop :=
  ∃ draws, x.act.2 = .receive (.ok (.verify v)) draws

/-- The step loads the keys from the vault. -/
def Loads (x : DaemonEntry) (keys : List (ByteArr 32)) : Prop :=
  ∃ store ok, x.act.2 = .getPassword ok ∧ keys = x.pre.verifyKeys store ok

variable (dalek : Dalek)

/-- The step checks the signature, at readings `now` of the clock. -/
def Checks (x : DaemonEntry) (v : VerifyRequest) (keys : List (ByteArr 32)) : Prop :=
  ∃ now, x.act.2 = .checkSignatures now ∧ signatureOk dalek v keys now = true

/-- The last steps of a task that is in a phase of a `Verify`. -/
def VerifyHistory (steps : List DaemonEntry) : Phase → Prop
  | .verifyLoad v => ∃ front r, steps = front ++ [r] ∧ Receives r v
  | .verifyCheck v keys => ∃ front r l, steps = front ++ [r, l] ∧ Receives r v ∧ Loads l keys
  | .verifyApprove v => ∃ front r l k keys, steps = front ++ [r, l, k] ∧ Receives r v ∧
      Loads l keys ∧ Checks dalek k v keys
  | _ => True

/-- The step belongs to a `Verify`: it is received, or its task is in one. -/
def OfVerify (x : DaemonEntry) : Prop :=
  (∃ v, Receives x v) ∨ ∃ store v, (x.pre.handlers x.act.1 = some ⟨store, .verifyLoad v⟩) ∨
    (∃ keys, x.pre.handlers x.act.1 = some ⟨store, .verifyCheck v keys⟩) ∨
    x.pre.handlers x.act.1 = some ⟨store, .verifyApprove v⟩

/-- **Soundness of authorizations.** -/
structure AuthorizationSound (tr : List DaemonEntry) : Prop where
  /-- a step that answers `true` answers an `Authorize`, or is that of a `Verify` that
  approves -/
  answers : ∀ x ∈ tr, x.out = some (.authorized true) →
    (∃ challengeId notify, answeredAuthorize x = some (challengeId, notify, true)) ∨
      (OfVerify x ∧ ∃ v entry, approvedVerify x = some (v, entry))
  /-- an `Authorize` answered `true` was approved before by a `Verify` that named its
  challenge id and carried the nonce and the timestamp of its own entry -/
  matched : ∀ pre x post challengeId notify, tr = pre ++ x :: post →
    answeredAuthorize x = some (challengeId, notify, true) →
      ∃ v entry, (v, entry) ∈ pre.filterMap approvedVerify ∧
        (challengeId, entry) ∈ pre.filterMap insertedEntry ∧ entry.notify = notify ∧
        v.challengeId = challengeId ∧ v.signed = (entry.nonce.1, entry.timestamp)
  /-- no two `Authorize` requests share a `Notify`, and no two approvals do: each is
  matched by an approval of its own -/
  distinct : (answeredNotifies tr).Nodup ∧ (approvedNotifies tr).Nodup
  /-- a `Verify` that approves has loaded a key and checked its signature under it,
  fresh, in the steps just before -/
  verified : ∀ pre x post v entry, tr = pre ++ x :: post →
    approvedVerify x = some (v, entry) →
      ∃ front r l k keys now i key, stepsOf x.act.1 pre = front ++ [r, l, k] ∧
        Receives r v ∧ Loads l keys ∧ k.act.2 = .checkSignatures now ∧ keys[i]? = some key ∧
        verifySignature dalek key.1 v.signed.1 v.timestamp
          ((hexDecode v.signature).getD []) (now i) = .ok () ∧
        isFresh v.timestamp (now i) = true
  /-- if no nonce is drawn twice, one signed pair approves one `Authorize` -/
  once : (tr.filterMap drawnNonce).Nodup →
    ((tr.filterMap approvedVerify).map fun p => p.1.signed).Nodup
  /-- a `Verify` changes the map in no step but the one that answers `true` -/
  refused : ∀ x ∈ tr, OfVerify x → x.out ≠ some (.authorized true) →
    x.post.pending = x.pre.pending

variable {dalek} {x : DaemonEntry}

/-! ## The steps of a `Verify` -/

theorem signatureOk_eq_true {v : VerifyRequest} {keys : List (ByteArr 32)} {now : ℕ → UInt64}
    (h : signatureOk dalek v keys now = true) :
    ∃ i key, keys[i]? = some key ∧
      verifySignature dalek key.1 v.signed.1 v.timestamp ((hexDecode v.signature).getD [])
        (now i) = .ok () := by
  obtain ⟨⟨key, i⟩, hmem, hok⟩ := List.any_eq_true.mp h
  refine ⟨i, key, List.mem_zipIdx_iff_getElem?.mp hmem, ?_⟩
  simp only [VerifyRequest.signed]
  generalize verifySignature dalek key.1 ((hexDecode v.nonce).getD []) v.timestamp
    ((hexDecode v.signature).getD []) (now i) = verdict at hok ⊢
  cases verdict with
  | error e => cases hok
  | ok u => rfl

theorem mem_stepsOf {conn : Conn} {tr : List DaemonEntry} :
    x ∈ stepsOf conn tr ↔ x ∈ tr ∧ x.act.1 = conn := by
  simp [stepsOf]

theorem stepsOf_snoc_self (tr : List DaemonEntry) (x : DaemonEntry) :
    stepsOf x.act.1 (tr ++ [x]) = stepsOf x.act.1 tr ++ [x] := by
  simp [stepsOf, List.filter_append]

theorem stepsOf_snoc_ne {conn : Conn} (tr : List DaemonEntry) (x : DaemonEntry)
    (h : x.act.1 ≠ conn) : stepsOf conn (tr ++ [x]) = stepsOf conn tr := by
  simp [stepsOf, List.filter_append, h]

/-- A step of its own continues the history of a task. -/
theorem verifyHistory_step (hdoes : (daemonMachine dalek).Does x) {steps : List DaemonEntry}
    (h : ∀ handler, x.pre.handlers x.act.1 = some handler →
      VerifyHistory dalek steps handler.phase) :
    ∀ handler, x.post.handlers x.act.1 = some handler →
      VerifyHistory dalek (steps ++ [x]) handler.phase := by
  have hcase := does_case hdoes
  obtain ⟨pre, ⟨conn, act⟩, out, post⟩ := x
  simp only at hcase h ⊢
  intro handler hhandler
  cases hcase with
  | close hconn => simp at hhandler
  | quiet hconn hlocal =>
      simp only [DaemonState.goto, Function.update_self, Option.some.injEq] at hhandler
      subst hhandler
      have hold := h _ hconn
      cases hlocal with
      | @verify v draws => exact ⟨steps, _, rfl, draws, rfl⟩
      | @verifyRead v ok =>
          obtain ⟨front, r, rfl, hr⟩ := hold
          exact ⟨front, r, _, List.append_assoc _ _ _, hr, _, ok, rfl, rfl⟩
      | @signed v keys now hok =>
          obtain ⟨front, r, l, rfl, hr, hl⟩ := hold
          exact ⟨front, r, l, _, keys, List.append_assoc _ _ _, hr, hl, now, rfl, hok⟩
      | _ => trivial
  | check hconn hnotified hq =>
      simp only [DaemonState.goto, Function.update_self, Option.some.injEq] at hhandler
      subst hhandler
      rw [hq]
      split <;> trivial
  | _ =>
      simp only [DaemonState.goto, Function.update_self, Option.some.injEq] at hhandler
      subst hhandler
      trivial

variable {vault : Option ByteString} {tr : List DaemonEntry} {s : DaemonState}

/-- **Every task in a `Verify` has taken the steps before it.** -/
theorem verifyHistory_run (hrun : Run (daemonMachine dalek) (DaemonState.initial vault) tr s) :
    ∀ c handler, s.handlers c = some handler →
      VerifyHistory dalek (stepsOf c tr) handler.phase := by
  refine Run.history (P := fun tr s => ∀ c handler, s.handlers c = some handler →
    VerifyHistory dalek (stepsOf c tr) handler.phase) hrun ?_ ?_
  · intro c handler h
    simp [DaemonState.initial] at h
  · intro tr x hpre hdoes h c handler hhandler
    by_cases hconn : x.act.1 = c
    · subst hconn
      rw [stepsOf_snoc_self]
      exact verifyHistory_step hdoes (h x.act.1) handler hhandler
    · rw [stepsOf_snoc_ne tr x hconn]
      rw [handlers_frame hdoes (fun heq => hconn heq.symm)] at hhandler
      exact h c handler hhandler

/-! ## The nonces -/

/-- **Each `Notify` has the nonce drawn when it was allocated.** -/
structure Nonces (tr : List DaemonEntry) (s : DaemonState) : Prop where
  count : (tr.filterMap drawnNonce).length = s.notifies
  drawn : ∀ c p, s.phaseAt Phase.drawn c = some p →
    (tr.filterMap drawnNonce)[p.2.notify]? = some p.2.nonce
  inserted : ∀ p ∈ tr.filterMap insertedEntry,
    (tr.filterMap drawnNonce)[p.2.notify]? = some p.2.nonce

/-- The entry an `Authorize` that starts goes on with. -/
def drawnEntry (x : DaemonEntry) : Option (ByteString × PendingAuth) :=
  (drawnNonce x).bind fun _ => x.post.phaseAt Phase.drawn x.act.1

/-- **Each `Notify` has the entry drawn when it was allocated.** -/
structure DrawnEntries (tr : List DaemonEntry) (s : DaemonState) : Prop where
  count : (tr.filterMap drawnEntry).length = s.notifies
  drawn : ∀ c p, s.phaseAt Phase.drawn c = some p →
    (tr.filterMap drawnEntry)[p.2.notify]? = some p
  inserted : ∀ p ∈ tr.filterMap insertedEntry,
    (tr.filterMap drawnEntry)[p.2.notify]? = some p

/-- What a step draws. -/
theorem draw_step (hdoes : (daemonMachine dalek).Does x) :
    (drawnEntry x = none ∧ drawnNonce x = none ∧ x.post.notifies = x.pre.notifies ∧
        x.post.phaseAt Phase.drawn x.act.1 = none) ∨
      ∃ p, drawnEntry x = some p ∧ drawnNonce x = some p.2.nonce ∧
        x.post.notifies = x.pre.notifies + 1 ∧ x.post.phaseAt Phase.drawn x.act.1 = some p ∧
        p.2.notify = x.pre.notifies ∧ insertedEntry x = none := by
  have hcase := does_case hdoes
  obtain ⟨pre, ⟨conn, act⟩, out, post⟩ := x
  simp only at hcase
  cases hcase with
  | authorize hconn hnonce =>
      refine Or.inr ⟨_, ?_, ?_, rfl, DaemonState.phaseAt_goto _ _ _ _ _, rfl, ?_⟩
      · simp only [drawnEntry, drawnNonce, hnonce, DaemonState.phaseAt_goto]
        rfl
      · simp [drawnNonce, hnonce, Except.toOption]
      · simp [insertedEntry]
  | close hconn =>
      exact Or.inl ⟨by simp [drawnEntry, drawnNonce], by simp [drawnNonce], rfl,
        by simp [DaemonState.phaseAt]⟩
  | quiet hconn hlocal =>
      refine Or.inl ⟨?_, ?_, rfl, ?_⟩ <;> cases hlocal <;>
        simp [drawnEntry, drawnNonce, Phase.drawn]
  | check hconn hnotified hq =>
      refine Or.inl ⟨by simp [drawnEntry, drawnNonce], by simp [drawnNonce], rfl, ?_⟩
      rw [DaemonState.phaseAt_goto, hq]
      split <;> rfl
  | _ =>
      exact Or.inl ⟨by simp [drawnEntry, drawnNonce], by simp [drawnNonce], rfl,
        by simp [Phase.drawn]⟩

/-- **Every run keeps the entries drawn.** -/
theorem drawnEntries_run (hrun : Run (daemonMachine dalek) (DaemonState.initial vault) tr s) :
    DrawnEntries tr s := by
  refine Run.history (P := DrawnEntries) hrun ?_ ?_
  · exact ⟨rfl, by simp [DaemonState.phaseAt, DaemonState.initial], by simp⟩
  · intro tr x hpre hdoes h
    have hframe : ∀ c, c ≠ x.act.1 →
        x.post.phaseAt Phase.drawn c = x.pre.phaseAt Phase.drawn c :=
      fun c hc => frame_step hdoes _ hc
    have hinserted : ∀ p ∈ (tr ++ [x]).filterMap insertedEntry,
        (tr.filterMap drawnEntry)[p.2.notify]? = some p := by
      intro p hp
      rw [List.filterMap_append, List.mem_append] at hp
      rcases hp with hp | hp
      · exact h.inserted p hp
      · rcases insert_step hdoes with ⟨hnone, -⟩ | ⟨q, hq, hwas, -⟩
        · simp [hnone] at hp
        · simp only [List.filterMap_cons, hq, List.filterMap_nil, List.mem_singleton] at hp
          subst hp
          exact h.drawn _ _ hwas
    rcases draw_step hdoes with ⟨hnone, -, hnotifies, hdrawn⟩ |
      ⟨p, hsome, -, hnotifies, hdrawn, hp, -⟩
    · refine ⟨?_, ?_, fun p hp => observed_snoc (hinserted p hp)⟩
      · rw [List.filterMap_append, List.length_append, h.count, hnotifies]
        simp [hnone]
      · intro c q hq
        by_cases hconn : c = x.act.1
        · rw [hconn, hdrawn] at hq
          cases hq
        · exact observed_snoc (h.drawn c q (by rwa [hframe c hconn] at hq))
    · refine ⟨?_, ?_, fun q hq => observed_snoc (hinserted q hq)⟩
      · rw [List.filterMap_append, List.length_append, h.count, hnotifies]
        simp [hsome]
      · intro c q hq
        by_cases hconn : c = x.act.1
        · rw [hconn, hdrawn] at hq
          obtain rfl := Option.some.inj hq
          rw [List.filterMap_append, hp, ← h.count, List.getElem?_append_right (le_refl _)]
          simp [hsome]
        · exact observed_snoc (h.drawn c q (by rwa [hframe c hconn] at hq))

/-- The nonces drawn are those of the entries. -/
theorem drawnNonce_eq (hrun : Run (daemonMachine dalek) (DaemonState.initial vault) tr s) :
    tr.filterMap drawnNonce = (tr.filterMap drawnEntry).map fun p => p.2.nonce := by
  rw [List.map_filterMap]
  refine List.filterMap_congr fun x hx => ?_
  rcases draw_step (hrun.does_of_mem hx) with ⟨hentry, hnonce, -⟩ | ⟨p, hentry, hnonce, -⟩
  · rw [hentry, hnonce, Option.map_none]
  · rw [hentry, hnonce, Option.map_some]

/-- **Every run keeps the nonces.** -/
theorem nonces_run (hrun : Run (daemonMachine dalek) (DaemonState.initial vault) tr s) :
    Nonces tr s := by
  have hentries := drawnEntries_run hrun
  have hnonces := drawnNonce_eq hrun
  refine ⟨?_, fun c p hp => ?_, fun p hp => ?_⟩
  · rw [hnonces, List.length_map, hentries.count]
  · rw [hnonces, List.getElem?_map, hentries.drawn c p hp, Option.map_some]
  · rw [hnonces, List.getElem?_map, hentries.inserted p hp, Option.map_some]

/-! ## The law -/

/-- An answered `Authorize` is past the insertion of its entry, and granted if it is
answered `true`. -/
theorem answeredAuthorize_eq_some (hdoes : (daemonMachine dalek).Does x)
    {challengeId : ByteString} {notify : ℕ} {authorized : Bool}
    (h : answeredAuthorize x = some (challengeId, notify, authorized)) :
    x.pre.phaseAt Phase.shown x.act.1 = some (challengeId, notify) ∧
      (authorized = true → x.pre.phaseAt Phase.granted x.act.1 = some notify) := by
  have hcase := does_case hdoes
  obtain ⟨pre, ⟨conn, act⟩, out, post⟩ := x
  simp only at hcase
  cases hcase with
  | remove hconn =>
      simp only [answeredAuthorize, hconn, Option.some.injEq, Prod.mk.injEq] at h
      obtain ⟨rfl, rfl, rfl⟩ := h
      refine ⟨by rw [DaemonState.phaseAt_some hconn]; rfl, fun htrue => ?_⟩
      rw [DaemonState.phaseAt_some hconn, htrue]
      rfl
  | quiet hconn hlocal => cases hlocal <;> simp [answeredAuthorize, hconn] at h
  | _ => simp [answeredAuthorize] at h

/-- An approval is the step of a task at that point. -/
theorem approvedVerify_phase (hdoes : (daemonMachine dalek).Does x) {v : VerifyRequest}
    {entry : PendingAuth} (h : approvedVerify x = some (v, entry)) :
    ∃ store, x.pre.handlers x.act.1 = some ⟨store, .verifyApprove v⟩ := by
  have hcase := does_case hdoes
  obtain ⟨pre, ⟨conn, act⟩, out, post⟩ := x
  simp only at hcase
  cases hcase with
  | approve hconn hentry =>
      simp only [approvedVerify, hconn, hentry, Option.map_some, Option.some.injEq,
        Prod.mk.injEq] at h
      exact ⟨_, h.1 ▸ hconn⟩
  | quiet hconn hlocal => cases hlocal <;> simp [approvedVerify, hconn] at h
  | _ => simp [approvedVerify] at h

/-- **A step that answers `true`** is that of an `Authorize`, or of a `Verify` that
approves. -/
theorem authorized_step (hdoes : (daemonMachine dalek).Does x)
    (hout : x.out = some (.authorized true)) :
    (∃ challengeId notify, answeredAuthorize x = some (challengeId, notify, true)) ∨
      (OfVerify x ∧ ∃ v entry, approvedVerify x = some (v, entry)) := by
  have hcase := does_case hdoes
  obtain ⟨pre, ⟨conn, act⟩, out, post⟩ := x
  simp only at hcase hout
  subst hout
  cases hcase with
  | @remove store challengeId notify authorized hconn =>
      exact .inl ⟨challengeId, notify, by simp [answeredAuthorize, hconn]⟩
  | @approve store v entry hconn hentry =>
      exact .inr ⟨.inr ⟨store, v, .inr (.inr hconn)⟩, v, entry,
        by simp [approvedVerify, hconn, hentry]⟩
  | quiet hconn hlocal => cases hlocal

/-- A step of a `Verify` that does not approve leaves the map alone. -/
theorem pending_unchanged (hdoes : (daemonMachine dalek).Does x) (hverify : OfVerify x)
    (hout : x.out ≠ some (.authorized true)) : x.post.pending = x.pre.pending := by
  have hcase := does_case hdoes
  obtain ⟨pre, ⟨conn, act⟩, out, post⟩ := x
  simp only at hcase hout
  cases hcase with
  | approve hconn => exact absurd rfl hout
  | insert hconn | remove hconn =>
      simp [OfVerify, Receives, hconn] at hverify
  | _ => rfl

/-- An `Authorize` answered `true` was approved before, in its own entry. -/
theorem matched_run {pre post : List DaemonEntry}
    (hrun : Run (daemonMachine dalek) (DaemonState.initial vault) (pre ++ x :: post) s)
    {challengeId : ByteString} {notify : ℕ}
    (hanswered : answeredAuthorize x = some (challengeId, notify, true)) :
    ∃ v entry, (v, entry) ∈ pre.filterMap approvedVerify ∧
      (challengeId, entry) ∈ pre.filterMap insertedEntry ∧ entry.notify = notify ∧
      v.challengeId = challengeId ∧ v.signed = (entry.nonce.1, entry.timestamp) := by
  obtain ⟨hpre, hdoes⟩ := hrun.split
  have hinserts := inserts_run hpre
  have happrovals := approvals_run hpre
  obtain ⟨hshown, hgranted⟩ := answeredAuthorize_eq_some hdoes hanswered
  -- the entry of the task, and the approval of its `Notify`
  obtain ⟨entry, hentry, hnotify⟩ := hinserts.shown _ _ hshown
  obtain ⟨⟨v, entry'⟩, happroved, hsame⟩ :=
    List.mem_map.mp (happrovals.granted _ _ (hgranted rfl))
  obtain ⟨hinserted, hmatches⟩ := happrovals.approved _ happroved
  have heq := hinserts.unique hinserted hentry (hsame.trans hnotify.symm)
  obtain ⟨hid, rfl⟩ := Prod.mk.inj heq
  obtain ⟨hnonce, htime, -⟩ := matchesEntry_eq_true hmatches
  exact ⟨v, entry', happroved, hentry, hnotify, hid, Prod.ext hnonce.symm htime.symm⟩

/-- A `Verify` that approves has checked its signature under a key it loaded. -/
theorem verified_run {pre post : List DaemonEntry}
    (hrun : Run (daemonMachine dalek) (DaemonState.initial vault) (pre ++ x :: post) s)
    {v : VerifyRequest} {entry : PendingAuth} (happroved : approvedVerify x = some (v, entry)) :
    ∃ front r l k keys now i key, stepsOf x.act.1 pre = front ++ [r, l, k] ∧
      Receives r v ∧ Loads l keys ∧ k.act.2 = .checkSignatures now ∧ keys[i]? = some key ∧
      verifySignature dalek key.1 v.signed.1 v.timestamp
        ((hexDecode v.signature).getD []) (now i) = .ok () := by
  obtain ⟨hpre, hdoes⟩ := hrun.split
  obtain ⟨store, hconn⟩ := approvedVerify_phase hdoes happroved
  obtain ⟨front, r, l, k, keys, hsteps, hr, hl, now, hk, hok⟩ :=
    verifyHistory_run hpre _ _ hconn
  obtain ⟨i, key, hkey, hsignature⟩ := signatureOk_eq_true hok
  exact ⟨front, r, l, k, keys, now, i, key, hsteps, hr, hl, hk, hkey, hsignature⟩

/-- If no nonce is drawn twice, no signed pair approves twice. -/
theorem signed_once (hrun : Run (daemonMachine dalek) (DaemonState.initial vault) tr s)
    (hnodup : (tr.filterMap drawnNonce).Nodup) :
    ((tr.filterMap approvedVerify).map fun p => p.1.signed).Nodup := by
  have happrovals := approvals_run hrun
  have hnonces := nonces_run hrun
  refine List.Nodup.map_on ?_ (List.Nodup.of_map _ happrovals.once)
  intro p hp q hq hsigned
  obtain ⟨hpin, hpmatch⟩ := happrovals.approved p hp
  obtain ⟨hqin, hqmatch⟩ := happrovals.approved q hq
  have hnonce : p.2.nonce = q.2.nonce := by
    apply Subtype.ext
    rw [(matchesEntry_eq_true hpmatch).1, (matchesEntry_eq_true hqmatch).1]
    exact (Prod.mk.inj hsigned).1
  apply List.inj_on_of_nodup_map happrovals.once hp hq
  have hpdrawn := hnonces.inserted _ hpin
  have hqdrawn := hnonces.inserted _ hqin
  simp only at hpdrawn hqdrawn
  refine (List.getElem?_inj (List.getElem?_eq_some_iff.mp hpdrawn).1 hnodup).mp ?_
  rw [hpdrawn, hqdrawn, hnonce]

/-- **Every authorization is sound**, in every run. -/
theorem authorization_sound
    (hrun : Run (daemonMachine dalek) (DaemonState.initial vault) tr s) :
    AuthorizationSound dalek tr := by
  refine ⟨fun x hx => authorized_step (hrun.does_of_mem hx), ?_,
    ⟨(owners_run hrun).once, (approvals_run hrun).once⟩, ?_, signed_once hrun,
    fun x hx => pending_unchanged (hrun.does_of_mem hx)⟩
  · rintro pre x post challengeId notify rfl hanswered
    exact matched_run hrun hanswered
  · rintro pre x post v entry rfl happroved
    obtain ⟨front, r, l, k, keys, now, i, key, hsteps, hr, hl, hk, hkey, hsignature⟩ :=
      verified_run hrun happroved
    exact ⟨front, r, l, k, keys, now, i, key, hsteps, hr, hl, hk, hkey, hsignature,
      (verifySignature_ok hsignature).2.1⟩

/-! ## A run -/

/-- The phone's signing key, and its signature over a nonce of ones and the time
1000. -/
def sampleKey : ByteArr 32 :=
  ⟨bytesOf 32 [0xd75a980182b10ab7d54bfed3c964073a0ee172f3daa62325af021a68f707511a], by decide⟩

def sampleSignature : ByteString :=
  bytesOf 64
    [0x9557530c8be0e751ac79fbb8efb9cdf12ca9bccf1b46ab86a86966465967a594,
     0x4e140c6d9b02bbbdfdb29a60a6dfd0d5a3c1916bc61f2763a70b5848b412720d]

def sampleNonce : ByteArr 32 := .replicate 32 1

/-- `ed25519_dalek` on the one signature of the run. -/
def sampleDalek : Dalek where
  isKey key := key = sampleKey
  verify key message signature :=
    key = sampleKey && message = sampleNonce.1 ++ toBeBytes 1000 && signature.1 = sampleSignature

def sampleVault : Option ByteString := some (encodeKeys [sampleKey])

/-- The draws of an `Authorize` at the time 1000, with a challenge id of zeros. -/
def sampleDraws : Draws := ⟨.ok sampleNonce, none, 1000⟩

def sampleVerify : VerifyRequest :=
  ⟨hexEncode (List.replicate 32 0), ascii "phone", hexEncode sampleNonce.1, 1000,
    hexEncode sampleSignature⟩

/-- The steps of a `Verify` on connection 2, up to its approval. -/
def verifyActs : List (Conn × Act) :=
  [(2, .accept true), (2, .receive (.ok (.verify sampleVerify)) sampleDraws),
    (2, .getPassword true), (2, .checkSignatures fun _ => 1000)]

/-- The steps of an `Authorize` on connection 1, up to its entry in the map. -/
def authorizeActs : List (Conn × Act) :=
  [(1, .accept true), (1, .receive (.ok (.authorize (ascii "user"))) sampleDraws), (1, .insert)]

def daemonTrace (acts : List (Conn × Act)) : List DaemonEntry :=
  (daemonMachine sampleDalek).trace (DaemonState.initial sampleVault) acts

/-- An `Authorize` that waits, is approved and is answered. -/
def authorizedTrace : List DaemonEntry :=
  daemonTrace (authorizeActs ++ [(1, .listen)] ++ verifyActs ++
    [(2, .approve), (1, .check), (1, .remove)])

theorem authorization_sound_sample :
    (authorizedTrace.filterMap answeredAuthorize).map (fun p => p.2.2) = [true] ∧
      AuthorizationSound sampleDalek authorizedTrace :=
  ⟨by decide +kernel, authorization_sound (Run.trace _ _ _)⟩

end OpenBioUnlock.Daemon

import OpenBioUnlock.Daemon.Authorization

/-!
# The challenge the daemon hands out

A `Challenge` is answered with the first entry the map iterates.  An entry stays in the
map after its approval, until the task of its `Authorize` removes it, and can be handed out
again in the meantime; a `Verify` for it is then refused, as it is for every entry that is
authorized already.

`answerable_iff` says in every run when all the challenges handed out can be answered:
exactly if none is that of an entry some `Verify` has approved before.
-/

namespace OpenBioUnlock.Daemon

open Codec Runs

/-- The steps of a `Verify` on the connection, one right after the other. -/
def verifyNext (conn : Conn) (v : VerifyRequest) (draws : Draws) (now : ℕ → UInt64) :
    List (Conn × Act) :=
  [(conn, .receive (.ok (.verify v)) draws), (conn, .getPassword true),
    (conn, .checkSignatures now), (conn, .approve)]

/-- The request echoes a challenge id, a nonce and a timestamp, and is signed for them
under the key. -/
structure Signs (dalek : Dalek) (key : ByteArr 32) (v : VerifyRequest)
    (challengeId nonce : ByteString) (timestamp : UInt64) : Prop where
  echoes : v.challengeId = challengeId ∧ v.nonce = nonce ∧ v.timestamp = timestamp
  signature : ∃ sig : ByteArr 64, hexDecode v.signature = some sig.1 ∧
    dalek.isKey key = true ∧
      dalek.verify key ((hexDecode nonce).getD [] ++ toBeBytes timestamp) sig = true

/-- A paired device that signs the challenge is answered `authorized: true`, in a
`Verify` that is processed next, on any connection, within the freshness window. -/
def DeviceAnswers (dalek : Dalek) (s : DaemonState) (challengeId nonce : ByteString)
    (timestamp : UInt64) : Prop :=
  ∀ (conn : Conn) (v : VerifyRequest) (draws : Draws) (now : ℕ → UInt64)
    (keys : List (ByteArr 32)) (i : ℕ) (key : ByteArr 32),
    s.handlers conn = some ⟨true, .idle⟩ →
    loadPublicKeys s.vault = .ok keys → keys[i]? = some key →
    Signs dalek key v challengeId nonce timestamp → isFresh timestamp (now i) = true →
    ((daemonMachine dalek).trace s (verifyNext conn v draws now)).map Entry.out =
      [none, none, none, some (.authorized true)]

/-- The challenge a step hands out. -/
def Hands (x : DaemonEntry) (challengeId nonce : ByteString) (timestamp : UInt64) : Prop :=
  x.out = some (.challenge challengeId nonce timestamp)

/-- **What a `Challenge` should do** in the step that answers it. -/
structure Answerable (dalek : Dalek) (x : DaemonEntry) : Prop where
  /-- the entry handed out is not authorized -/
  unauthorized : ∀ challengeId nonce timestamp, Hands x challengeId nonce timestamp →
    ∃ entry, x.pre.pending.lookup challengeId = some entry ∧ entry.authorized = false
  /-- one is handed out if there is one that is not authorized -/
  handed : ∀ index, x.act.2 = .iterate index →
    (∃ challengeId entry, x.pre.pending.lookup challengeId = some entry ∧
      entry.authorized = false) →
    ∃ challengeId nonce timestamp, Hands x challengeId nonce timestamp
  /-- and the device can answer it -/
  answered : ∀ challengeId nonce timestamp, Hands x challengeId nonce timestamp →
    DeviceAnswers dalek x.post challengeId nonce timestamp

/-- The entry the map iterates first has not been approved by a `Verify` before. -/
def FirstUnapproved (pre : List DaemonEntry) (x : DaemonEntry) : Prop :=
  ∀ index p, x.act.2 = .iterate index → x.pre.pending.entries[index]? = some p →
    p.2.notify ∉ approvedNotifies pre

variable {dalek : Dalek} {s : DaemonState} {x : DaemonEntry} {conn : Conn}

/-! ## A `Verify` on its own -/

@[simp] theorem goto_handlers (store : Bool) (phase : Phase) :
    (s.goto conn store phase).handlers conn = some ⟨store, phase⟩ := by
  simp [DaemonState.goto]

@[simp] theorem goto_goto (store store' : Bool) (phase phase' : Phase) :
    (s.goto conn store phase).goto conn store' phase' = s.goto conn store' phase' := by
  simp [DaemonState.goto]

theorem verifySignature_eq_ok {dalek : Dalek} {key : ByteArr 32} {nonce : ByteString}
    {sig : ByteArr 64} {timestamp now : UInt64} (hnonce : nonce.length = nonceLen)
    (hfresh : isFresh timestamp now = true) (hkey : dalek.isKey key = true)
    (hverify : dalek.verify key (nonce ++ toBeBytes timestamp) sig = true) :
    verifySignature dalek key.1 nonce timestamp sig.1 now = .ok () := by
  have hpre : ¬ (nonce.length ≠ nonceLen || !isFresh timestamp now) = true := by
    simp [hnonce, hfresh]
  rw [verifySignature, if_neg hpre, ByteArr.ofSlice?_eq_some.mpr rfl]
  simp only [hkey, if_true]
  rw [ByteArr.ofSlice?_eq_some.mpr rfl]
  simp only [hverify, if_true]

theorem signatureOk_of_key {v : VerifyRequest} {keys : List (ByteArr 32)} {now : ℕ → UInt64}
    {i : ℕ} {key : ByteArr 32} (hkey : keys[i]? = some key)
    (hok : verifySignature dalek key.1 ((hexDecode v.nonce).getD []) v.timestamp
      ((hexDecode v.signature).getD []) (now i) = .ok ()) :
    signatureOk dalek v keys now = true := by
  refine List.any_eq_true.mpr ⟨(key, i), List.mem_zipIdx_iff_getElem?.mpr hkey, ?_⟩
  simp only [hok]
  rfl

/-- The four steps of a `Verify`, from a state in which its key is there. -/
theorem verify_next {v : VerifyRequest} {draws : Draws} {now : ℕ → UInt64}
    {keys : List (ByteArr 32)} (hconn : s.handlers conn = some ⟨true, .idle⟩)
    (hkeys : loadPublicKeys s.vault = .ok keys) (hsigned : signatureOk dalek v keys now = true)
    {entry : PendingAuth} (hentry : s.pending.lookup v.challengeId = some entry) :
    ((daemonMachine dalek).trace s (verifyNext conn v draws now)).map Entry.out =
      [none, none, none, some (.authorized (DaemonState.matchesEntry v entry))] := by
  have hreceive : s.step dalek conn (.receive (.ok (.verify v)) draws) =
      some (s.goto conn true (.verifyLoad v), none) := by
    simp [DaemonState.step, hconn, DaemonState.receive, DaemonState.proceed]
  have hload : (s.goto conn true (.verifyLoad v)).step dalek conn (.getPassword true) =
      some (s.goto conn true (.verifyCheck v keys), none) := by
    have hread : (s.goto conn true (.verifyLoad v)).verifyKeys true true = keys := by
      simp [DaemonState.verifyKeys, DaemonState.getPassword, DaemonState.goto, hkeys,
        Except.toOption]
    simp [DaemonState.step, hread, DaemonState.proceed]
  have hcheck : (s.goto conn true (.verifyCheck v keys)).step dalek conn (.checkSignatures now) =
      some (s.goto conn true (.verifyApprove v), none) := by
    simp [DaemonState.step, hsigned, DaemonState.proceed]
  have happrove : ∃ t, (s.goto conn true (.verifyApprove v)).step dalek conn .approve =
      some (t, some (.authorized (DaemonState.matchesEntry v entry))) := by
    have hentry' : (s.goto conn true (.verifyApprove v)).pending.lookup v.challengeId =
      some entry := hentry
    cases hmatches : DaemonState.matchesEntry v entry <;>
      simp [DaemonState.step, hentry', hmatches, DaemonState.respond]
  obtain ⟨t, happrove⟩ := happrove
  simp [verifyNext, daemonMachine, Machine.trace, hreceive, hload, hcheck, happrove]

/-! ## A `Challenge` -/

/-- What the step of a `Challenge` answers. -/
theorem does_iterate (hdoes : (daemonMachine dalek).Does x) {index : ℕ}
    (hact : x.act.2 = .iterate index) :
    x.post.pending = x.pre.pending ∧
      ((x.pre.pending.entries = [] ∧ x.out = some (.error nothingPending)) ∨
        ∃ p, x.pre.pending.entries[index]? = some p ∧
          x.out = some (.challenge p.1 (hexEncode p.2.nonce.1) p.2.timestamp)) := by
  have hcase := does_case hdoes
  obtain ⟨pre, ⟨conn, act⟩, out, post⟩ := x
  obtain rfl : act = .iterate index := hact
  simp only at hcase
  obtain ⟨store, hconn⟩ : ∃ store, pre.handlers conn = some ⟨store, .challenge⟩ := by
    cases hcase with
    | quiet hconn hlocal => cases hlocal <;> exact ⟨_, hconn⟩
  have hstep : pre.step dalek conn (.iterate index) = some (post, out) := hdoes
  simp only [DaemonState.step, hconn] at hstep
  split_ifs at hstep with hempty
  · obtain ⟨rfl, rfl⟩ := Prod.mk.inj (Option.some.inj hstep)
    exact ⟨rfl, Or.inl ⟨hempty, rfl⟩⟩
  · obtain ⟨p, hp, hresult⟩ := Option.map_eq_some_iff.mp hstep
    obtain ⟨rfl, rfl⟩ := Prod.mk.inj hresult
    exact ⟨rfl, Or.inr ⟨p, hp, rfl⟩⟩

/-- A challenge is handed out in the step of a `Challenge` only. -/
theorem hands_iterate (hdoes : (daemonMachine dalek).Does x) {challengeId nonce : ByteString}
    {timestamp : UInt64} (h : Hands x challengeId nonce timestamp) :
    ∃ index, x.act.2 = .iterate index := by
  have hcase := does_case hdoes
  obtain ⟨pre, ⟨conn, act⟩, out, post⟩ := x
  obtain rfl : out = some (.challenge challengeId nonce timestamp) := h
  simp only at hcase
  cases hcase with
  | quiet hconn hlocal =>
      cases hlocal
      exact ⟨_, rfl⟩

/-- The entry handed out. -/
theorem hands_entry (hdoes : (daemonMachine dalek).Does x) {challengeId nonce : ByteString}
    {timestamp : UInt64} (h : Hands x challengeId nonce timestamp) :
    ∃ index entry, x.act.2 = .iterate index ∧
      x.pre.pending.entries[index]? = some ⟨challengeId, entry⟩ ∧
      nonce = hexEncode entry.nonce.1 ∧ timestamp = entry.timestamp := by
  obtain ⟨index, hact⟩ := hands_iterate hdoes h
  obtain ⟨-, ⟨-, hout⟩ | ⟨⟨id, entry⟩, hentry, hout⟩⟩ := does_iterate hdoes hact
  · rw [Hands, hout] at h
    cases h
  · rw [Hands, hout] at h
    cases h
    exact ⟨index, entry, hact, hentry, rfl, rfl⟩

theorem lookup_of_getElem? {pending : SharedState} {index : ℕ} {challengeId : ByteString}
    {entry : PendingAuth} (h : pending.entries[index]? = some ⟨challengeId, entry⟩) :
    pending.lookup challengeId = some entry :=
  AList.mem_lookup_iff.mpr (List.mem_of_getElem? h)

/-- **An entry that is not authorized can be answered.** -/
theorem deviceAnswers_of_entry {challengeId : ByteString} {entry : PendingAuth}
    (hentry : s.pending.lookup challengeId = some entry) (hopen : entry.authorized = false) :
    DeviceAnswers dalek s challengeId (hexEncode entry.nonce.1) entry.timestamp := by
  intro conn v draws now keys i key hconn hkeys hkey hsigns hfresh
  obtain ⟨rfl, hnonce, htimestamp⟩ := hsigns.echoes
  obtain ⟨sig, hsig, hisKey, hverify⟩ := hsigns.signature
  have hbytes : (hexDecode v.nonce).getD [] = entry.nonce.1 := by
    rw [hnonce, hexDecode_encode, Option.getD_some]
  have hsigned : signatureOk dalek v keys now = true := by
    apply signatureOk_of_key hkey
    rw [hexDecode_encode, Option.getD_some] at hverify
    rw [hbytes, hsig, Option.getD_some, htimestamp]
    exact verifySignature_eq_ok entry.nonce.2 hfresh hisKey hverify
  have hmatches : DaemonState.matchesEntry v entry = true := by
    simp [DaemonState.matchesEntry, hbytes, htimestamp, hopen]
  rw [verify_next hconn hkeys hsigned hentry, hmatches]

/-! ## Every run -/

/-- One step: the challenge handed out can be answered exactly if the entry is not
authorized. -/
theorem answerable_step (hdoes : (daemonMachine dalek).Does x) :
    Answerable dalek x ↔ ∀ index p, x.act.2 = .iterate index →
      x.pre.pending.entries[index]? = some p → p.2.authorized = false := by
  constructor
  · rintro h index ⟨id, entry⟩ hact hentry
    obtain ⟨-, ⟨hempty, -⟩ | ⟨p, hp, hout⟩⟩ := does_iterate hdoes hact
    · simp [hempty] at hentry
    · obtain rfl := Option.some.inj (hentry.symm.trans hp)
      obtain ⟨entry', hlookup, hopen⟩ := h.unauthorized _ _ _ hout
      obtain rfl := Option.some.inj ((lookup_of_getElem? hentry).symm.trans hlookup)
      exact hopen
  · intro h
    refine ⟨?_, ?_, ?_⟩
    · intro id nonce timestamp hhands
      obtain ⟨index, entry, hact, hentry, -, -⟩ := hands_entry hdoes hhands
      exact ⟨entry, lookup_of_getElem? hentry, h index _ hact hentry⟩
    · rintro index hact ⟨id, entry, hlookup, -⟩
      obtain ⟨-, ⟨hempty, -⟩ | ⟨p, -, hout⟩⟩ := does_iterate hdoes hact
      · have hmem := AList.mem_lookup_iff.mp hlookup
        rw [hempty] at hmem
        cases hmem
      · exact ⟨_, _, _, hout⟩
    · intro id nonce timestamp hhands
      obtain ⟨index, entry, hact, hentry, rfl, rfl⟩ := hands_entry hdoes hhands
      refine deviceAnswers_of_entry ?_ (h index _ hact hentry)
      rw [(does_iterate hdoes hact).1]
      exact lookup_of_getElem? hentry

/-- **In every run**, all challenges handed out can be answered exactly if none is that of
an entry approved before. -/
theorem answerable_iff {vault : Option ByteString} {tr : List DaemonEntry}
    (hrun : Run (daemonMachine dalek) (DaemonState.initial vault) tr s) :
    (∀ x ∈ tr, Answerable dalek x) ↔ Along FirstUnapproved tr := by
  have hstep : ∀ pre x post, tr = pre ++ x :: post →
      (Answerable dalek x ↔ FirstUnapproved pre x) := by
    rintro pre x post rfl
    obtain ⟨hpre, hdoes⟩ := hrun.split
    rw [answerable_step hdoes]
    refine forall_congr' fun index => forall_congr' fun p => forall_congr' fun _ =>
      forall_congr' fun hentry => ?_
    have happroved := ((approvals_run hpre).entries p.1 p.2 (lookup_of_getElem? hentry)).2
    rw [← happroved, Bool.not_eq_true]
  constructor
  · intro h pre x post heq
    exact (hstep pre x post heq).mp (h x (by simp [heq]))
  · intro h x hx
    obtain ⟨pre, post, heq⟩ := List.append_of_mem hx
    exact (hstep pre x post heq).mpr (h pre x post heq)

/-! ## Two runs -/

/-- Whether the entry a step hands out is authorized. -/
def handedAuthorized (x : DaemonEntry) : Option Bool :=
  match x.out with
  | some (.challenge challengeId _ _) =>
      (x.pre.pending.lookup challengeId).map PendingAuth.authorized
  | _ => none

/-- A `Challenge` on connection 4, answered with the first entry. -/
def challengeActs : List (Conn × Act) :=
  [(4, .accept true), (4, .receive (.ok .challenge) sampleDraws), (4, .iterate 0)]

/-- A request waits, its challenge is handed out, and the device answers it. -/
def handedTrace : List DaemonEntry :=
  daemonTrace (authorizeActs ++ [(1, .listen)] ++ challengeActs ++
    verifyNext 4 sampleVerify sampleDraws fun _ => 1000)

theorem answerable_iff_sample :
    handedTrace.filterMap Entry.out =
        [.challenge sampleVerify.challengeId sampleVerify.nonce 1000, .authorized true] ∧
      ((∀ x ∈ handedTrace, Answerable sampleDalek x) ↔ Along FirstUnapproved handedTrace) :=
  ⟨by decide +kernel, answerable_iff (Run.trace _ _ _)⟩

/-- Two requests wait, the first of them is approved, and its waiter has not run when a
`Challenge` comes: the challenge handed out is that of the approved request, not of the
one that still waits, and a `Verify` that answers it is refused. -/
def staleTrace : List DaemonEntry :=
  daemonTrace (authorizeActs ++
    [(3, .accept true),
      (3, .receive (.ok (.authorize (ascii "user")))
        ⟨.ok (.replicate 32 2), some (.replicate 32 7), 1001⟩), (3, .insert), (1, .listen),
      (3, .listen)] ++ verifyActs ++ [(2, .approve)] ++ challengeActs ++
    verifyNext 4 sampleVerify sampleDraws fun _ => 1000)

theorem answerable_fails :
    staleTrace.filterMap Entry.out =
        [.authorized true, .challenge sampleVerify.challengeId sampleVerify.nonce 1000,
          .authorized false] ∧
      staleTrace.getLast?.map (fun x => x.post.pending.entries.map fun p => p.2.authorized) =
        some [true, false] ∧
      ¬ ∀ dalek vault tr s, Run (daemonMachine dalek) (DaemonState.initial vault) tr s →
        ∀ x ∈ tr, Answerable dalek x := by
  have htrace : staleTrace.filterMap Entry.out =
        [.authorized true, .challenge sampleVerify.challengeId sampleVerify.nonce 1000,
          .authorized false] ∧
      staleTrace.getLast?.map (fun x => x.post.pending.entries.map fun p => p.2.authorized) =
        some [true, false] ∧ staleTrace.filterMap handedAuthorized = [true] := by
    decide +kernel
  obtain ⟨houts, hlast, hhanded⟩ := htrace
  refine ⟨houts, hlast, fun h => ?_⟩
  obtain ⟨x, hx, hauthorized⟩ := List.mem_filterMap.mp
    (hhanded ▸ List.mem_singleton_self true : true ∈ staleTrace.filterMap handedAuthorized)
  have hanswerable := h sampleDalek sampleVault staleTrace _ (Run.trace _ _ _) x hx
  unfold handedAuthorized at hauthorized
  split at hauthorized
  · rename_i id nonce timestamp hout
    obtain ⟨entry, hentry, hopen⟩ := hanswerable.unauthorized id nonce timestamp hout
    rw [hentry, Option.map_some, hopen] at hauthorized
    cases hauthorized
  · cases hauthorized

end OpenBioUnlock.Daemon

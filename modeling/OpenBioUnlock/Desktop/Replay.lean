import OpenBioUnlock.Desktop.KeyState
import OpenBioUnlock.Machine.Forgetful

/-!
# The replay guard in the server

`ReplayGuard` on its own is the machine `guardMachine`, one step a call of
`accept`; the server's verify requests make it take such steps and nothing else
touches it (`run_guard`).  As a memory it is an instance of
`Machine.Forgetful`: a call is a presentation of its nonce and timestamp, which is
fresh by `isFreshTimestamp` and remembered by its token, and the memory is wiped
when the last cleanup is more than 60 seconds old (`run_forgetful`).

The cleanup is on a schedule of its own, so it can forget a token whose timestamp
is still inside the window of 30 seconds either way; the pair is then accepted
again (`forgotten_replays`).  `ForgetsOnlyGone` excludes that, and under it no
pair is accepted twice (`replay_protection`).

The guard is asked before the signature is looked at.  A request it lets through
is remembered even if the signature is then rejected, and the pair is spent for
everybody: `rejected_inert_iff` says that a rejected request leaves no trace
exactly when the guard itself refused it.
-/

namespace OpenBioUnlock.Desktop

open Codec Runs

/-! ## The guard on its own -/

/-- A call of `accept`, with its two readings of the clock. -/
structure GuardCall where
  nonce : QByteArray
  timestamp : Int64
  first : EpochSecs
  second : EpochSecs

/-- The guard, one step a call. -/
def guardMachine : Machine ReplayGuard GuardCall Bool where
  step replayGuard c := some (replayGuard.accept c.nonce c.timestamp c.first c.second)

abbrev GuardEntry := Entry ReplayGuard GuardCall Bool

/-- The pair a call accepts. -/
def acceptedCall (x : GuardEntry) : Option (QByteArray × Int64) :=
  if x.out then some (x.act.nonce, x.act.timestamp) else none

/-- The readings of the clock do not run backwards, within a call or between calls. -/
def ClockForward (tr : List GuardEntry) : Prop :=
  (∀ x ∈ tr, x.act.first ≤ x.act.second) ∧
    tr.Pairwise fun y x => y.act.second ≤ x.act.first

instance (tr : List GuardEntry) : Decidable (ClockForward tr) := by
  unfold ClockForward
  infer_instance

/-- A call gets past the checks that need no memory. -/
def GuardCall.Fresh (c : GuardCall) : Prop :=
  c.nonce ≠ [] ∧ isFreshTimestamp c.timestamp c.first.secs = true

/-- The call finds the last cleanup more than 60 seconds ago. -/
def CleanupDue (replayGuard : ReplayGuard) (now : EpochSecs) : Prop :=
  now.since replayGuard.lastCleanup > 60

instance (replayGuard : ReplayGuard) (now : EpochSecs) : Decidable (CleanupDue replayGuard now) :=
  inferInstanceAs (Decidable (now.since replayGuard.lastCleanup > 60))

/-- A cleanup that is due empties the memory. -/
theorem cleanup_of_due {replayGuard : ReplayGuard} {now : EpochSecs}
    (h : CleanupDue replayGuard now) : replayGuard.cleanup now = ⟨[], now⟩ :=
  if_pos h

/-- A cleanup that is not due does nothing. -/
theorem cleanup_of_not_due {replayGuard : ReplayGuard} {now : EpochSecs}
    (h : ¬ CleanupDue replayGuard now) : replayGuard.cleanup now = replayGuard :=
  if_neg h

/-- A cleanup forgets only pairs that cannot come back: none of those accepted
before is the one presented, or is fresh now or later. -/
def ForgetsOnlyGone (tr : List GuardEntry) (x : GuardEntry) : Prop :=
  x.act.Fresh → CleanupDue x.pre x.act.second → ∀ y ∈ tr, y.out = true →
    (y.act.nonce, y.act.timestamp) ≠ (x.act.nonce, x.act.timestamp) ∧
      ∀ later, x.act.second ≤ later → isFreshTimestamp y.act.timestamp later.secs = false

/-! ### The guard as a memory -/

def pairKey (p : QByteArray × Int64) : QByteArray := replayToken p.1 p.2

def pairFresh (p : QByteArray × Int64) (now : EpochSecs) : Bool :=
  p.1 ≠ [] && isFreshTimestamp p.2 now.secs

/-- A call as a presentation. -/
def presented (x : GuardEntry) :
    MemoryEntry (QByteArray × Int64) EpochSecs QByteArray where
  pre := x.pre.seen
  act := ⟨(x.act.nonce, x.act.timestamp), x.act.first, x.act.second,
    decide (CleanupDue x.pre x.act.second)⟩
  out := x.out
  post := x.post.seen

/-- A call of the guard is a step of a forgetful memory. -/
theorem presented_does {x : GuardEntry} (hdoes : guardMachine.Does x) :
    Shows (forgetful pairKey pairFresh) ReplayGuard.seen x (some (presented x)) := by
  refine ⟨rfl, rfl, ?_⟩
  obtain ⟨replayGuard, c, accepted, post⟩ := x
  simp only [Machine.Does, guardMachine, Option.some.injEq, Prod.ext_iff] at hdoes
  obtain ⟨rfl, rfl⟩ := hdoes
  simp only [Machine.Does, forgetful, presented, Presentation.kept, pairKey]
  by_cases hfresh : c.nonce = [] ∨ isFreshTimestamp c.timestamp c.first.secs = false
  · have hstale : pairFresh (c.nonce, c.timestamp) c.first = false := by
      rcases hfresh with h | h <;> simp [pairFresh, h]
    simp [ReplayGuard.accept, hfresh, hstale]
  · have hpair : pairFresh (c.nonce, c.timestamp) c.first = true := by
      simpa [pairFresh] using hfresh
    simp only [ReplayGuard.accept, if_neg hfresh, hpair, if_true]
    by_cases hdue : CleanupDue replayGuard c.second
    · simp [cleanup_of_due hdue, hdue]
    · simp only [cleanup_of_not_due hdue, hdue, decide_false]
      by_cases hseen : replayToken c.nonce c.timestamp ∈ replayGuard.seen <;> simp [hseen]

variable {tr : List GuardEntry} {replayGuard : ReplayGuard}

/-- **Refinement.**  A run of the guard is a run of a forgetful memory. -/
theorem run_forgetful (hrun : Run guardMachine .initial tr replayGuard) :
    Run (forgetful pairKey pairFresh) [] (tr.map presented) replayGuard.seen := by
  rw [← List.filterMap_eq_map]
  exact hrun.map ReplayGuard.seen (fun x => some (presented x)) (C := fun _ _ => True)
    (fun _ _ _ _ => trivial) fun _ _ _ _ _ hdoes => presented_does hdoes

/-- **A guard that forgets only what is gone accepts no pair twice.** -/
theorem guard_accepted_nodup (hrun : Run guardMachine .initial tr replayGuard)
    (hclock : ClockForward tr) (hforgets : Along ForgetsOnlyGone tr) :
    (tr.filterMap acceptedCall).Nodup := by
  have hordered : Ordered (tr.map presented) := List.pairwise_map.mpr hclock.2
  have hwipes : Along (WipesOnlyGone pairFresh) (tr.map presented) := by
    refine hforgets.map presented fun pre x hx hfresh hdue y hy hout => ?_
    obtain ⟨z, hz, rfl⟩ := List.mem_map.mp hy
    have hcall : x.act.Fresh := by
      simp only [pairFresh, presented, Bool.and_eq_true] at hfresh
      exact ⟨of_decide_eq_true hfresh.1, hfresh.2⟩
    obtain ⟨hother, hdead⟩ := hx hcall (of_decide_eq_true hdue) z hz hout
    refine ⟨hother, fun later hlater => ?_⟩
    simp only [pairFresh, presented, hdead later hlater, Bool.and_false]
  have hnodup := accepted_nodup (run_forgetful hrun) hordered hwipes
  rw [List.filterMap_map] at hnodup
  exact hnodup

/-- **What is forgotten too early is accepted again**: after a cleanup carried out
for another token, a pair passes at any time it is fresh at. -/
theorem forgotten_replays {c : GuardCall} (hfresh : c.Fresh)
    (hdue : CleanupDue replayGuard c.second) {nonce : QByteArray} {timestamp : Int64}
    (hnonce : nonce ≠ []) (htoken : replayToken nonce timestamp ≠ replayToken c.nonce c.timestamp)
    {later : EpochSecs} (hlater : isFreshTimestamp timestamp later.secs = true) :
    ((replayGuard.accept c.nonce c.timestamp c.first c.second).1.accept nonce timestamp
      later later).2 = true := by
  have haccept : (replayGuard.accept c.nonce c.timestamp c.first c.second).2 = true := by
    rw [ReplayGuard.accept_eq_true, cleanup_of_due hdue]
    exact ⟨hfresh, by simp⟩
  rw [ReplayGuard.accept_of_true haccept, cleanup_of_due hdue, ReplayGuard.accept_eq_true]
  refine ⟨⟨hnonce, hlater⟩, ?_⟩
  by_cases hagain : CleanupDue ⟨[replayToken c.nonce c.timestamp], c.second⟩ later
  · simp [cleanup_of_due hagain]
  · simpa [cleanup_of_not_due hagain] using htoken

/-- Every pair accepted before has a timestamp more than 30 seconds past when the
guard is cleaned. -/
def PastAtCleanup (tr : List GuardEntry) (x : GuardEntry) : Prop :=
  CleanupDue x.pre x.act.second → x.act.first ≤ x.act.second ∧
    ∀ y ∈ tr, y.out = true → 0 ≤ y.act.timestamp ∧
      y.act.timestamp.toInt + 30 < x.act.first.secs.toInt

instance (tr : List GuardEntry) (x : GuardEntry) : Decidable (PastAtCleanup tr x) := by
  unfold PastAtCleanup
  infer_instance

/-- For timestamps that are times of day, past is gone. -/
theorem PastAtCleanup.forgetsOnlyGone {x : GuardEntry} (h : PastAtCleanup tr x) :
    ForgetsOnlyGone tr x := by
  intro hfresh hdue y hy hout
  obtain ⟨hclock, hpast⟩ := h hdue
  obtain ⟨hnonneg, hpast⟩ := hpast y hy hout
  constructor
  · intro hsame
    have hstale := isFreshTimestamp_past hnonneg hpast le_rfl
    obtain ⟨-, htime⟩ := Prod.mk.inj hsame
    rw [htime, hfresh.2] at hstale
    cases hstale
  · intro later hlater
    exact isFreshTimestamp_past hnonneg hpast (le_trans hclock hlater)

/-! ## The guard in the server -/

variable (lib : Libraries)

/-- The call of the guard a step of the server makes. -/
def guardCall (x : ServerEntry) : Option GuardCall :=
  (askedVerify lib x).bind fun p =>
    if (x.pre.pairedKeys p.1).isSome then
      some ⟨p.2.1.nonce, p.2.1.timestamp, p.2.2.clock 0, p.2.2.clock 1⟩
    else none

/-- The step of the guard a step of the server shows as. -/
def guardEntry (x : ServerEntry) : Option GuardEntry :=
  (guardCall lib x).map fun c =>
    ⟨x.pre.replayGuard, c,
      (x.pre.replayGuard.accept c.nonce c.timestamp c.first c.second).2, x.post.replayGuard⟩

variable {lib} {x : ServerEntry}

/-- A step that calls the guard leaves what the call leaves. -/
theorem guardCall_eq_some (hdoes : (serverMachine lib).Does x) {c : GuardCall}
    (h : guardCall lib x = some c) :
    ∃ id v env key, askedVerify lib x = some (id, v, env) ∧
      x.pre.pairedKeys id = some key ∧ c = ⟨v.nonce, v.timestamp, env.clock 0, env.clock 1⟩ ∧
      x.post = { x.pre with replayGuard :=
        (x.pre.replayGuard.accept c.nonce c.timestamp c.first c.second).1 } := by
  obtain ⟨⟨id, v, env⟩, hasked, h⟩ := Option.bind_eq_some_iff.mp h
  obtain ⟨_, _, -, -, -, hpost, -⟩ := askedVerify_eq_some hdoes hasked
  split at h
  · rename_i hpaired
    obtain ⟨key, hkey⟩ := Option.isSome_iff_exists.mp hpaired
    obtain rfl := Option.some.inj h
    exact ⟨id, v, env, key, hasked, hkey, rfl, by rw [hpost, verdict_guard hkey]⟩
  · cases h

/-- A step that does not call the guard leaves it alone. -/
theorem guard_unchanged (hdoes : (serverMachine lib).Does x) (h : guardCall lib x = none) :
    x.post.replayGuard = x.pre.replayGuard := by
  cases hasked : askedVerify lib x with
  | some p =>
      obtain ⟨id, v, env⟩ := p
      obtain ⟨_, _, -, -, -, hpost, -⟩ := askedVerify_eq_some hdoes hasked
      have hunpaired : x.pre.pairedKeys id = none := by
        simpa [guardCall, hasked] using h
      rw [hpost]
      simp [Server.verdict, hunpaired]
  | none =>
      have hcase := does_case hdoes
      generalize hact : x.act = act at hcase
      generalize x.post = post at hcase
      cases hcase with
      | line hline =>
          cases hline with
          | verify hjson hpair hopen htype =>
              have hopened := opened_eq_some.mpr ⟨_, _, _, _, hact, hjson, hpair, hopen⟩
              simp [askedVerify, hact, hopened, htype] at hasked
          | _ => rfl
      | _ => rfl

variable {pcId : QByteArray} {keyPair : X25519KeyPair} {trace : List ServerEntry} {s : Server}

/-- **Refinement.**  In a run of the server its guard makes a run of its own. -/
theorem run_guard (hrun : Run (serverMachine lib) (Server.initial pcId keyPair) trace s) :
    Run guardMachine .initial (trace.filterMap (guardEntry lib)) s.replayGuard := by
  refine hrun.map Server.replayGuard (guardEntry lib) (C := fun _ _ => True)
    (fun _ _ _ _ => trivial) ?_
  intro _ x _ _ _ hdoes
  unfold guardEntry
  cases hcall : guardCall lib x with
  | none => exact guard_unchanged hdoes hcall
  | some c =>
      obtain ⟨_, _, _, _, -, -, -, hpost⟩ := guardCall_eq_some hdoes hcall
      refine ⟨rfl, rfl, ?_⟩
      simp only [Machine.Does, guardMachine, hpost]

/-- An authorized request passed the guard. -/
theorem acceptedCall_of_authorized (hdoes : (serverMachine lib).Does x) {id : QString}
    {v : VerifyRequest} (h : authorizedVerify lib x = some (id, v)) :
    (guardEntry lib x).bind acceptedCall = some (v.nonce, v.timestamp) := by
  obtain ⟨env, hasked, hverdict⟩ := (answeredVerify_iff hdoes).mp h
  obtain ⟨key, hkey, haccept, -⟩ := verdict_eq_true.mp hverdict
  have hcall : guardCall lib x =
      some ⟨v.nonce, v.timestamp, env.clock 0, env.clock 1⟩ := by
    simp [guardCall, hasked, hkey]
  simp [guardEntry, hcall, acceptedCall, haccept]

/-- The pairs authorized are, in order, some of the pairs the guard accepted. -/
theorem authorized_sublist (hdoes : ∀ x ∈ trace, (serverMachine lib).Does x) :
    ((trace.filterMap (authorizedVerify lib)).map fun p => (p.2.nonce, p.2.timestamp)).Sublist
      ((trace.filterMap (guardEntry lib)).filterMap acceptedCall) := by
  rw [List.filterMap_filterMap, List.map_filterMap]
  induction trace with
  | nil => exact List.Sublist.refl _
  | cons x rest ih =>
      have ih := ih fun y hy => hdoes y (List.mem_cons_of_mem _ hy)
      rw [List.filterMap_cons, List.filterMap_cons]
      cases hauthorized : authorizedVerify lib x with
      | none =>
          simp only [Option.map_none]
          cases (guardEntry lib x).bind acceptedCall with
          | none => exact ih
          | some p => exact ih.cons p
      | some p =>
          rw [acceptedCall_of_authorized (hdoes x (by simp)) hauthorized]
          exact ih.cons_cons _

/-- **Replay protection**, of the guard and of the server it is in, as long as the
cleanups forget only what is gone. -/
theorem replay_protection (lib : Libraries) (pcId : QByteArray) (keyPair : X25519KeyPair) :
    (∀ (tr : List GuardEntry) (replayGuard : ReplayGuard),
        Run guardMachine .initial tr replayGuard → ClockForward tr →
        Along ForgetsOnlyGone tr → (tr.filterMap acceptedCall).Nodup) ∧
      ∀ (tr : List ServerEntry) (s : Server),
        Run (serverMachine lib) (Server.initial pcId keyPair) tr s →
        ClockForward (tr.filterMap (guardEntry lib)) →
        Along ForgetsOnlyGone (tr.filterMap (guardEntry lib)) →
        ((tr.filterMap (authorizedVerify lib)).map fun p => (p.2.nonce, p.2.timestamp)).Nodup := by
  refine ⟨fun tr replayGuard => guard_accepted_nodup, ?_⟩
  intro tr s hrun hclock hforgets
  apply List.Sublist.nodup (authorized_sublist fun x hx => hrun.does_of_mem hx)
  exact guard_accepted_nodup (run_guard hrun) hclock hforgets

/-! ### One envelope, authorized twice

The cleanup of 60 seconds starts from the first call, at 1000; a timestamp of 1090
is accepted at 1060, forgotten at 1061, and fresh until 1120.
-/

/-- The phone's signature over the byte `aa` and the time 1090. -/
def lateSignature : QByteArray :=
  bytesOf 64
    [0x0a5d54bc6d57c65ce9be1cb301797dd606f2d12602da17e37e83d53c9c85cccb,
     0x7c2ca153aeb024ac3c5c3b84e2bbaf8f15047531a807fe536e0ab5197a2b530c]

/-- The verify request for it. -/
def lateVerify : Seal :=
  phoneSeal 0x3d3e3f404142434445464748 (verifyDocument [0xaa] 1090 lateSignature) 190
    [0x2ff2115e0e3969739f7aedbce34545701de273793668d841488046d9db2e56ff,
     0xd8e0d1182ea7e78ab385666a503ad875217f0804b6acbf6e91d3c3aea6b87df0,
     0xf2abd57b2bf939215ee6c5ca402d6ca3eaba23f9ea624d4978b0ffdaf64a670a,
     0x6f80114d07baa5857ceca50375264685ca75c6ace959e051219fab9ae48cf75e,
     0x776ed261d08100fb737e0412060974a40643712df2a3b3dd09847e6fc7eab496,
     0x97b9258b2d6ebaf19866732da6db3a7ddbdc0264a67adabac1921682d1480000]
    0x2584985059e4c0aeb439ce563bb474f8

/-- A verify request of the phone for that nonce, with a bad signature. -/
def badVerify : Seal :=
  phoneSeal 0x0d0e0f101112131415161718 (verifyDocument [0xaa] 1000 [0]) 64
    [0x6b34d729151a98422768535053aea4dd26932f267ea6358dc309f2e542988152,
     0xd041309a5cd67923c0123583dfae2c4260afb8b207bc31fd37decf6ddabf703f]
    0x826709892e20e74707c7237a50c011ec

/-- `authorized: false`, under a nonce of zeros. -/
def rejectedSeal : Seal :=
  phoneSeal 0x000000000000000000000000 (authorizedPayload false) 40
    [0xec7f11587e23d94a0d9accc7405fc9fac7a365d296b8bf15b709e1b931824a58,
     0x4e8732d06cf2e772000000000000000000000000000000000000000000000000]
    0x85f5762fdc990187d6c2b60c2c272c1c

def replayRecording : Recording :=
  recording [chosenVerify, lateVerify, badVerify, authorizedSeal, rejectedSeal]
    [(phoneSigningKey, 0xaa :: timestampBytes 1000, chosenSignature),
      (phoneSigningKey, 0xaa :: timestampBytes 1090, lateSignature)]

def lateTime : EpochSecs := ⟨1060, by decide⟩

def cleanupTime : EpochSecs := ⟨1061, by decide⟩

/-- The guard accepts a pair twice, and the server authorizes it twice. -/
theorem replay_protection_fails :
    (¬ ∀ (tr : List GuardEntry) (replayGuard : ReplayGuard),
        Run guardMachine .initial tr replayGuard → ClockForward tr →
        (tr.filterMap acceptedCall).Nodup) ∧
      ¬ ∀ (lib : Libraries) (pcId : QByteArray) (keyPair : X25519KeyPair)
        (tr : List ServerEntry) (s : Server),
        Run (serverMachine lib) (Server.initial pcId keyPair) tr s → Nondecreasing tr →
        ((tr.filterMap (authorizedVerify lib)).map fun p => (p.2.nonce, p.2.timestamp)).Nodup := by
  constructor
  · intro h
    have hnodup := h (guardMachine.trace .initial
      [⟨[0xaa], 1000, sampleTime, sampleTime⟩,
        ⟨[0xaa], 1090, lateTime, lateTime⟩,
        ⟨[0xaa], 1090, cleanupTime, cleanupTime⟩]) _ (Run.trace _ _ _)
      (by decide +kernel)
    exact absurd hnodup (by decide +kernel)
  · intro h
    let tr := sampleTrace replayRecording [startEvent, lineEvent 1 phonePair sampleTime 0,
      lineEvent 1 chosenVerify.envelope sampleTime 0,
      lineEvent 1 lateVerify.envelope lateTime 0,
      lineEvent 1 lateVerify.envelope cleanupTime 0]
    have hfacts : Nondecreasing tr ∧
        ¬ ((tr.filterMap (authorizedVerify replayRecording.libraries)).map fun p =>
          (p.2.nonce, p.2.timestamp)).Nodup := by
      decide +kernel
    exact hfacts.2 (h replayRecording.libraries samplePcId sampleKeyPair tr _ (Run.trace _ _ _)
      hfacts.1)

/-- The run of a phone that sends one verify request twice. -/
def resentTrace : List ServerEntry :=
  sampleTrace replayRecording [startEvent, lineEvent 1 phonePair sampleTime 0,
    lineEvent 1 chosenVerify.envelope sampleTime 0,
    lineEvent 1 chosenVerify.envelope sampleTime 0]

/-- The calls of a guard whose cleanup comes when its one token is long stale. -/
def cleanTrace : List GuardEntry :=
  guardMachine.trace .initial [⟨[0xaa], 1000, sampleTime, sampleTime⟩,
    ⟨[0xaa], 1060, cleanupTime, cleanupTime⟩]

/-- Two runs whose cleanups forget only what is past. -/
theorem replay_protection_sample :
    (cleanTrace.filterMap acceptedCall).Nodup ∧
      ((resentTrace.filterMap (authorizedVerify replayRecording.libraries)).map fun p =>
        (p.2.nonce, p.2.timestamp)).Nodup := by
  have hclean : ∀ n : Fin cleanTrace.length, PastAtCleanup (cleanTrace.take n) cleanTrace[n] := by
    decide +kernel
  have hresent : ClockForward (resentTrace.filterMap (guardEntry replayRecording.libraries)) ∧
      ∀ n : Fin (resentTrace.filterMap (guardEntry replayRecording.libraries)).length,
        PastAtCleanup ((resentTrace.filterMap (guardEntry replayRecording.libraries)).take n)
          (resentTrace.filterMap (guardEntry replayRecording.libraries))[n] := by
    decide +kernel
  have hlaw := replay_protection replayRecording.libraries samplePcId sampleKeyPair
  constructor
  · refine hlaw.1 _ _ (Run.trace _ _ _) (by decide +kernel) (Along.of_take ?_)
    exact fun n hn => (hclean ⟨n, hn⟩).forgetsOnlyGone
  · refine hlaw.2 _ _ (Run.trace _ _ _) hresent.1 (Along.of_take ?_)
    exact fun n hn => (hresent.2 ⟨n, hn⟩).forgetsOnlyGone

/-! ## Rejected requests -/

/-- The guard refuses the call: it is empty or stale, or its token is remembered and
no cleanup is due. -/
def GuardRefuses (replayGuard : ReplayGuard) (c : GuardCall) : Prop :=
  c.nonce = [] ∨ isFreshTimestamp c.timestamp c.first.secs = false ∨
    (¬ CleanupDue replayGuard c.second ∧
      replayToken c.nonce c.timestamp ∈ replayGuard.seen)

theorem guardRefuses_iff {c : GuardCall} : GuardRefuses replayGuard c ↔
    (replayGuard.accept c.nonce c.timestamp c.first c.second).2 = false := by
  rw [← Bool.not_eq_true, ReplayGuard.accept_eq_true, GuardRefuses, ← Bool.not_eq_true]
  by_cases hdue : CleanupDue replayGuard c.second
  · simp only [cleanup_of_due hdue, hdue, List.not_mem_nil]
    tauto
  · simp only [cleanup_of_not_due hdue, hdue]
    tauto

instance (replayGuard : ReplayGuard) (c : GuardCall) : Decidable (GuardRefuses replayGuard c) :=
  decidable_of_iff _ guardRefuses_iff.symm

/-- **A rejected request leaves no trace**: the guard remembers what it did, and
whatever happens later, no request is refused by the guard that it would have let
through otherwise. -/
structure Inert (lib : Libraries) (x : ServerEntry) : Prop where
  same : ∀ token, token ∈ x.post.replayGuard.seen ↔ token ∈ x.pre.replayGuard.seen
  later : ∀ (events : List ServerEvent) (c : GuardCall),
    (((serverMachine lib).final x.pre events).replayGuard.accept
      c.nonce c.timestamp c.first c.second).2 = true →
    (((serverMachine lib).final x.post events).replayGuard.accept
      c.nonce c.timestamp c.first c.second).2 = true

/-- A call the guard lets through is refused when it is made again at once. -/
theorem refused_again {c : GuardCall}
    (h : (replayGuard.accept c.nonce c.timestamp c.first c.second).2 = true) :
    ((replayGuard.accept c.nonce c.timestamp c.first c.second).1.accept
      c.nonce c.timestamp c.first c.second).2 = false := by
  rw [ReplayGuard.accept_of_true h, ← guardRefuses_iff]
  refine Or.inr (Or.inr ⟨?_, by simp⟩)
  by_cases hdue : CleanupDue replayGuard c.second
  · have hzero : c.second.since c.second = 0 := by
      simp [EpochSecs.since]
    simp [cleanup_of_due hdue, CleanupDue, hzero]
  · rw [cleanup_of_not_due hdue]
    exact hdue

/-- **A rejected request is inert exactly when the guard itself refused it.** -/
theorem rejected_inert_iff (hrun : Run (serverMachine lib) (Server.initial pcId keyPair) trace x.pre)
    (hdoes : (serverMachine lib).Does x) {id : QString} {v : VerifyRequest}
    (h : rejectedVerify lib x = some (id, v)) :
    ∃ c, guardCall lib x = some c ∧ (c.nonce = v.nonce ∧ c.timestamp = v.timestamp) ∧
      (Inert lib x ↔ GuardRefuses x.pre.replayGuard c) := by
  obtain ⟨env, hasked, -⟩ := (answeredVerify_iff hdoes).mp h
  obtain ⟨decrypted, -, hopened, -⟩ := askedVerify_eq_some hdoes hasked
  obtain ⟨key, hkey, -⟩ := opensUnder_of_opened hopened
  obtain ⟨r, -, -, -, hpaired, -⟩ := keysOf_session hrun hkey
  have hcall : guardCall lib x = some ⟨v.nonce, v.timestamp, env.clock 0, env.clock 1⟩ := by
    simp [guardCall, hasked, hpaired]
  obtain ⟨_, _, _, _, -, -, -, hpost⟩ := guardCall_eq_some hdoes hcall
  refine ⟨_, hcall, ⟨rfl, rfl⟩, ?_⟩
  constructor
  · -- were the call let through, the same call would be refused after it
    intro hinert
    rw [guardRefuses_iff, ← Bool.not_eq_true]
    intro haccept
    have hafter := hinert.later [] _ haccept
    simp only [Machine.final, hpost] at hafter
    rw [refused_again haccept] at hafter
    cases hafter
  · intro hrefuses
    have hsame : x.post = x.pre := by
      rw [hpost, ReplayGuard.accept_of_false (guardRefuses_iff.mp hrefuses)]
    exact ⟨fun token => by rw [hsame], fun events c haccept => by rw [hsame]; exact haccept⟩

/-- A request with a bad signature is rejected and its token kept. -/
theorem rejected_inert_fails :
    ¬ ∀ (lib : Libraries) (pcId : QByteArray) (keyPair : X25519KeyPair)
        (tr : List ServerEntry) (s : Server) (x : ServerEntry),
      Run (serverMachine lib) (Server.initial pcId keyPair) tr s → x ∈ tr →
        (rejectedVerify lib x).isSome → Inert lib x := by
  intro h
  have htrace : ∃ x ∈ sampleTrace replayRecording [startEvent,
        lineEvent 1 phonePair sampleTime 0, lineEvent 1 badVerify.envelope sampleTime 0],
      (rejectedVerify replayRecording.libraries x).isSome ∧
        replayToken [0xaa] 1000 ∈ x.post.replayGuard.seen ∧
        replayToken [0xaa] 1000 ∉ x.pre.replayGuard.seen := by
    decide +kernel
  obtain ⟨x, hx, hrejected, hkept, hnew⟩ := htrace
  exact hnew (((h _ _ _ _ _ x (Run.trace _ _ _) hx hrejected).same _).mp hkept)

/-- A request sent twice is rejected the second time, and that leaves no trace. -/
theorem rejected_inert_sample :
    ∃ x ∈ resentTrace, (rejectedVerify replayRecording.libraries x).isSome ∧
      Inert replayRecording.libraries x := by
  have htrace : ∃ x ∈ resentTrace, (rejectedVerify replayRecording.libraries x).isSome ∧
      ∀ c ∈ guardCall replayRecording.libraries x, GuardRefuses x.pre.replayGuard c := by
    decide +kernel
  obtain ⟨x, hx, hrejected, hrefuses⟩ := htrace
  obtain ⟨p, hp⟩ := Option.isSome_iff_exists.mp hrejected
  obtain ⟨pre, post, htr⟩ := List.append_of_mem hx
  have hrun := Run.trace (serverMachine replayRecording.libraries)
    (Server.initial samplePcId sampleKeyPair) [startEvent, lineEvent 1 phonePair sampleTime 0,
      lineEvent 1 chosenVerify.envelope sampleTime 0,
      lineEvent 1 chosenVerify.envelope sampleTime 0]
  change Run _ _ resentTrace _ at hrun
  rw [htr] at hrun
  obtain ⟨hpre, hdoes⟩ := hrun.split
  obtain ⟨c, hcall, -, hiff⟩ := rejected_inert_iff hpre hdoes hp
  exact ⟨x, hx, hrejected, hiff.mpr (hrefuses c hcall)⟩

end OpenBioUnlock.Desktop

import Mathlib.Data.Finset.Erase
import Mathlib.Data.Finset.Insert
import OpenBioUnlock.Daemon.Pairings

/-!
# The pairing gate

A workstation issues one-time pairing codes, which expire, and a `Pair` uses up
the code it presents.  The daemon asks only that a code be presented, and compares
it with nothing.

`gateMachine` runs the daemon beside the set of codes that are outstanding.
`pairing_gate` says what holds in runs in which the daemon is presented no other
codes: the stored keys change for such a `Pair` only, and a client that knows
neither a code nor a signing key is authorized by nothing it sends.
`pair_without_code` is the other side: any code will do.
-/

namespace OpenBioUnlock.Daemon

open Codec Runs

/-- The code and the key of a `Pair` the daemon goes on with. -/
def presented (s : DaemonState) (conn : Conn) (act : Act) : Option (ByteString × ByteArr 32) :=
  match s.handlers conn, act with
  | some ⟨true, .idle⟩, .receive (.ok (.pair _ publicKey pairingCode)) _ =>
      if pairingCode = [] then none
      else ((hexDecode publicKey).bind (ByteArr.ofSlice? 32)).map fun key => (pairingCode, key)
  | _, _ => none

/-- The daemon, and what a workstation keeps of its pairing codes. -/
structure GateState where
  daemon : DaemonState
  /-- the codes issued and not yet used up or expired -/
  codes : Finset ByteString
  /-- the code a connection's `Pair` has used up, if it was outstanding when it came -/
  admitted : Conn → Option ByteString

inductive GateAct where
  | issue (pairingCode : ByteString)
  | expire (pairingCode : ByteString)
  | daemon (conn : Conn) (act : Act)

namespace GateState

def initial (vault : Option ByteString) : GateState where
  daemon := .initial vault
  codes := ∅
  admitted := fun _ => none

/-- A `Pair` that presents `pairingCode` uses it up. -/
def present (g : GateState) (conn : Conn) (pairingCode : ByteString) : GateState :=
  { g with
    codes := g.codes.erase pairingCode
    admitted := Function.update g.admitted conn
      (if pairingCode ∈ g.codes then some pairingCode else none) }

/-- What the workstation notes of a step of the daemon. -/
def note (g : GateState) (conn : Conn) (act : Act) : GateState :=
  match presented g.daemon conn act with
  | some p => g.present conn p.1
  | none => g

end GateState

variable (dalek : Dalek)

def GateState.step (g : GateState) : GateAct → Option (GateState × Option Response)
  | .issue pairingCode => some ({ g with codes := insert pairingCode g.codes }, none)
  | .expire pairingCode => some ({ g with codes := g.codes.erase pairingCode }, none)
  | .daemon conn act =>
      (g.daemon.step dalek conn act).map fun r => ({ g.note conn act with daemon := r.1 }, r.2)

def gateMachine : Machine GateState GateAct (Option Response) where
  step := GateState.step dalek

abbrev GateEntry := Entry GateState GateAct (Option Response)

/-- The step of the daemon. -/
def daemonEntry (x : GateEntry) : Option DaemonEntry :=
  match x.act with
  | .daemon conn act => some ⟨x.pre.daemon, (conn, act), x.out, x.post.daemon⟩
  | _ => none

/-- The `Pair` the daemon goes on with: its connection, its code and its key. -/
def presentedPair (y : GateEntry) : Option (Conn × ByteString × ByteArr 32) :=
  match y.act with
  | .daemon conn act => (presented y.pre.daemon conn act).map fun p => (conn, p)
  | _ => none

/-- The `Verify` a connection sends. -/
def sentVerify (y : GateEntry) : Option (Conn × VerifyRequest) :=
  match y.act with
  | .daemon conn (.receive (.ok (.verify v)) _) => some (conn, v)
  | _ => none

/-- A `Pair` the daemon goes on with presents an outstanding code. -/
def PresentsOutstanding (y : GateEntry) : Prop :=
  ∀ p ∈ presentedPair y, p.2.1 ∈ y.pre.codes

instance : DecidablePred PresentsOutstanding := fun y =>
  inferInstanceAs (Decidable (∀ p ∈ presentedPair y, p.2.1 ∈ y.pre.codes))

/-- **The gate**: the vault is written only by a `Pair` whose code was outstanding when
it came. -/
def Gated (x : GateEntry) : Prop :=
  x.post.daemon.vault ≠ x.pre.daemon.vault →
    ∃ conn store key pairingCode keys, x.act = .daemon conn (.setPassword true) ∧
      x.pre.daemon.handlers conn = some ⟨store, .pairStore key pairingCode keys⟩ ∧
      x.pre.admitted conn = some pairingCode

/-- The connections of a client that knows no code and no signing key of another, only
the keys `known` to it. -/
structure Ignorant (client : Conn → Prop) (known : ByteArr 32 → Prop) (vault : Option ByteString)
    (trace : List GateEntry) : Prop where
  codes : ∀ y ∈ trace, ∀ conn pairingCode key, presentedPair y = some (conn, pairingCode, key) →
    client conn → pairingCode ∉ y.pre.codes
  stored : ∀ key ∈ (DaemonState.initial vault).storedKeys, ¬ known key
  paired : ∀ y ∈ trace, ∀ conn pairingCode key, presentedPair y = some (conn, pairingCode, key) →
    ¬ client conn → ¬ known key
  /-- the signatures it sends are of keys it knows -/
  signs : ∀ y ∈ trace, ∀ conn v, sentVerify y = some (conn, v) → client conn →
    ∀ key signature, signature.1 = (hexDecode v.signature).getD [] → dalek.isKey key = true →
      dalek.verify key (v.signed.1 ++ toBeBytes v.timestamp) signature = true → known key

/-- The client is authorized by nothing it sends: no `Verify` of it is answered
`true`, and an `Authorize` of it only by the approval of another. -/
structure Refused (client : Conn → Prop) (tr : List DaemonEntry) : Prop where
  verify : ∀ x ∈ tr, client x.act.1 → OfVerify x → x.out ≠ some (.authorized true)
  authorize : ∀ pre x post challengeId notify, tr = pre ++ x :: post → client x.act.1 →
    answeredAuthorize x = some (challengeId, notify, true) →
      ∃ y ∈ pre, ¬ client y.act.1 ∧ ∃ v entry, approvedVerify y = some (v, entry) ∧
        entry.notify = notify

/-- The code and the key of a `Pair` in progress. -/
def Phase.pairing : Phase → Option (ByteString × ByteArr 32)
  | .pairLoad key pairingCode => some (pairingCode, key)
  | .pairStore key pairingCode _ => some (pairingCode, key)
  | _ => none

/-! ## A `Pair` in progress -/

variable {dalek} {x : DaemonEntry}

/-- A `Pair` is in progress after a step if it was before, or was just presented. -/
theorem pairing_step (hdoes : (daemonMachine dalek).Does x) {p : ByteString × ByteArr 32}
    (h : x.post.phaseAt Phase.pairing x.act.1 = some p) :
    presented x.pre x.act.1 x.act.2 = some p ∨
      (presented x.pre x.act.1 x.act.2 = none ∧
        x.pre.phaseAt Phase.pairing x.act.1 = some p) := by
  have hcase := does_case hdoes
  obtain ⟨pre, ⟨conn, act⟩, out, post⟩ := x
  simp only at hcase h ⊢
  cases hcase with
  | quiet hconn hlocal =>
      rw [DaemonState.phaseAt_goto] at h
      cases hlocal with
      | @pair deviceId publicKey pairingCode draws key hcode hstore hkey =>
          subst hstore
          have hslice : ByteArr.ofSlice? 32 key.1 = some key := ByteArr.ofSlice?_eq_some.mpr rfl
          simp only [Phase.pairing, Option.some.injEq] at h
          exact Or.inl (by simp [presented, hconn, hcode, hkey, hslice, h])
      | pairRead hkeys =>
          refine Or.inr ⟨by simp [presented, hconn], ?_⟩
          rw [DaemonState.phaseAt_some hconn]
          exact h
      | _ => cases h
  | close hconn => simp [DaemonState.phaseAt] at h
  | check hconn hnotified hq =>
      rw [DaemonState.phaseAt_goto, hq] at h
      split at h <;> cases h
  | _ =>
      rw [DaemonState.phaseAt_goto] at h
      cases h

/-- The vault is written by a `Pair` in progress. -/
theorem vault_write (hdoes : (daemonMachine dalek).Does x) (h : x.post.vault ≠ x.pre.vault) :
    x.act.2 = .setPassword true ∧ ∃ store key pairingCode keys,
      x.pre.handlers x.act.1 = some ⟨store, .pairStore key pairingCode keys⟩ := by
  have hcase := does_case hdoes
  obtain ⟨pre, ⟨conn, act⟩, out, post⟩ := x
  simp only at hcase h ⊢
  cases hcase with
  | store hconn => exact ⟨rfl, _, _, _, _, hconn⟩
  | _ => exact absurd rfl h

/-- The key a `Pair` is answered for is the one it was in progress with. -/
theorem pairedKey_pairing (hdoes : (daemonMachine dalek).Does x) {key : ByteArr 32}
    (h : pairedKey x = some key) :
    ∃ pairingCode, x.pre.phaseAt Phase.pairing x.act.1 = some (pairingCode, key) := by
  have hcase := does_case hdoes
  obtain ⟨pre, ⟨conn, act⟩, out, post⟩ := x
  simp only at hcase h ⊢
  cases hcase with
  | store hconn =>
      simp only [pairedKey, hconn, Option.some.injEq] at h
      subst h
      exact ⟨_, by rw [DaemonState.phaseAt_some hconn]; rfl⟩
  | quiet hconn hlocal => cases hlocal <;> simp [pairedKey, hconn] at h
  | _ => simp [pairedKey] at h

/-! ## The gate -/

variable {vault : Option ByteString} {s : DaemonState} {tr : List DaemonEntry}
variable {y : GateEntry} {trace : List GateEntry} {g : GateState}

theorem gate_does {conn : Conn} {act : Act} (hdoes : (gateMachine dalek).Does y)
    (hact : y.act = .daemon conn act) :
    (daemonMachine dalek).Does ⟨y.pre.daemon, (conn, act), y.out, y.post.daemon⟩ ∧
      y.post.codes = (y.pre.note conn act).codes ∧
      y.post.admitted = (y.pre.note conn act).admitted := by
  have hstep : y.pre.step dalek y.act = some (y.post, y.out) := hdoes
  rw [hact, GateState.step] at hstep
  obtain ⟨r, hr, heq⟩ := Option.map_eq_some_iff.mp hstep
  obtain ⟨hpost, hout⟩ := Prod.mk.inj heq
  refine ⟨?_, by rw [← hpost], by rw [← hpost]⟩
  show y.pre.daemon.step dalek conn act = some (y.post.daemon, y.out)
  rw [hr, ← hpost, ← hout]

/-- A step of the workstation leaves the daemon alone. -/
theorem gate_frame (hdoes : (gateMachine dalek).Does y)
    (hact : ∀ conn act, y.act ≠ .daemon conn act) :
    y.post.daemon = y.pre.daemon ∧ y.post.admitted = y.pre.admitted := by
  have hstep : y.pre.step dalek y.act = some (y.post, y.out) := hdoes
  cases h : y.act with
  | daemon conn act => exact absurd h (hact conn act)
  | issue pairingCode | expire pairingCode =>
      rw [h, GateState.step] at hstep
      rw [← (Prod.mk.inj (Option.some.inj hstep)).1]
      exact ⟨rfl, rfl⟩

/-- **A run beside the gate is a run of the daemon.** -/
theorem daemon_run (hrun : Run (gateMachine dalek) (GateState.initial vault) trace g) :
    Run (daemonMachine dalek) (DaemonState.initial vault) (trace.filterMap daemonEntry) g.daemon := by
  refine Run.map (C := fun _ _ => True) GateState.daemon daemonEntry hrun (fun _ _ _ _ => trivial)
    ?_
  intro tr y _ _ _ hdoes
  unfold daemonEntry
  split
  · rename_i conn act hact
    exact ⟨rfl, rfl, (gate_does hdoes hact).1⟩
  · rename_i hact
    exact (gate_frame hdoes hact).1

/-- **A `Pair` in progress was admitted**, if every code presented is outstanding. -/
theorem admitted_run (hrun : Run (gateMachine dalek) (GateState.initial vault) trace g)
    (hpresents : Along (fun _ y => PresentsOutstanding y) trace) :
    ∀ c p, g.daemon.phaseAt Phase.pairing c = some p → g.admitted c = some p.1 := by
  refine Run.induction (P := fun _ g => ∀ c p, g.daemon.phaseAt Phase.pairing c = some p →
    g.admitted c = some p.1) hrun hpresents ?_ ?_
  · intro c p h
    simp [GateState.initial, DaemonState.initial, DaemonState.phaseAt] at h
  · intro tr y _ _ hy hdoes ih c p hp
    by_cases hact : ∃ conn act, y.act = .daemon conn act
    · obtain ⟨conn, act, hact⟩ := hact
      obtain ⟨hdaemon, -, hadmitted⟩ := gate_does hdoes hact
      have hcode : ∀ p ∈ presented y.pre.daemon conn act, p.1 ∈ y.pre.codes := by
        intro p hpresented
        exact hy (conn, p) (by simp [presentedPair, hact, Option.mem_def.mp hpresented])
      rw [hadmitted, GateState.note]
      by_cases hc : c = conn
      · subst hc
        rcases pairing_step hdaemon hp with hpresented | ⟨hnone, hold⟩
        · simp only at hpresented
          simp [hpresented, GateState.present, hcode p hpresented]
        · simp only at hnone hold
          simp only [hnone]
          exact ih c p hold
      · have hframe := frame_step hdaemon Phase.pairing (c := c) hc
        simp only at hframe
        rw [hframe] at hp
        split
        · simp only [GateState.present, Function.update_of_ne hc]
          exact ih c p hp
        · exact ih c p hp
    · obtain ⟨hsame, hadmitted⟩ := gate_frame hdoes fun conn act h => hact ⟨conn, act, h⟩
      rw [hsame] at hp
      rw [hadmitted]
      exact ih c p hp

/-- The gate holds at every step. -/
theorem gated_run (hrun : Run (gateMachine dalek) (GateState.initial vault) trace g)
    (hpresents : Along (fun _ y => PresentsOutstanding y) trace) : ∀ y ∈ trace, Gated y := by
  intro y hy hchanged
  obtain ⟨pre, post, rfl⟩ := List.append_of_mem hy
  obtain ⟨hpre, hdoes⟩ := hrun.split
  by_cases hact : ∃ conn act, y.act = .daemon conn act
  · obtain ⟨conn, act, hact⟩ := hact
    obtain ⟨hdaemon, -, -⟩ := gate_does hdoes hact
    obtain ⟨hset, store, key, pairingCode, keys, hconn⟩ := vault_write hdaemon hchanged
    simp only at hset hconn
    subst hset
    refine ⟨conn, store, key, pairingCode, keys, hact, hconn, ?_⟩
    apply admitted_run hpre hpresents.of_append conn (pairingCode, key)
    rw [DaemonState.phaseAt_some hconn]
    rfl
  · rw [(gate_frame hdoes fun conn act h => hact ⟨conn, act, h⟩).1] at hchanged
    exact absurd rfl hchanged

/-! ## Keys the client does not know -/

/-- No key the daemon has, or is about to store, is known to the client. -/
structure Unknown (known : ByteArr 32 → Prop) (s : DaemonState) : Prop where
  stored : ∀ key ∈ s.storedKeys, ¬ known key
  pairing : ∀ c p, s.phaseAt Phase.pairing c = some p → ¬ known p.2
  held : ∀ c keys, s.phaseAt Phase.held c = some keys → ∀ key ∈ keys, ¬ known key

theorem unknown_run {known : ByteArr 32 → Prop}
    (hrun : Run (daemonMachine dalek) (DaemonState.initial vault) tr s)
    (hstored : ∀ key ∈ (DaemonState.initial vault).storedKeys, ¬ known key)
    (hpresented : Along (fun _ x => ∀ p ∈ presented x.pre x.act.1 x.act.2, ¬ known p.2) tr) :
    Unknown known s := by
  refine Run.induction (P := fun _ s => Unknown known s) hrun hpresented ?_ ?_
  · exact ⟨hstored, by simp [DaemonState.initial, DaemonState.phaseAt],
      by simp [DaemonState.initial, DaemonState.phaseAt]⟩
  · intro tr x _ _ hx hdoes h
    have hframe : ∀ {β : Type} (f : Phase → Option β) c, c ≠ x.act.1 →
        x.post.phaseAt f c = x.pre.phaseAt f c := fun f c hc => frame_step hdoes f hc
    have hpairing : ∀ c p, x.post.phaseAt Phase.pairing c = some p → ¬ known p.2 := by
      intro c p hp
      by_cases hc : c = x.act.1
      · subst hc
        rcases pairing_step hdoes hp with hnew | ⟨-, hold⟩
        · exact hx p hnew
        · exact h.pairing _ p hold
      · exact h.pairing c p (by rwa [hframe _ c hc] at hp)
    rcases vault_step hdoes with ⟨-, hsame, -, hread⟩ |
      ⟨key, keys, hpaired, hheld, hwritten, hnone, -⟩
    · refine ⟨?_, hpairing, ?_⟩
      · rw [DaemonState.storedKeys, hsame]
        exact h.stored
      · intro c keys hkeys
        by_cases hc : c = x.act.1
        · subst hc
          rcases hread keys hkeys with rfl | hload
          · simp
          · rw [← storedKeys_of_load hload]
            exact h.stored
        · exact h.held c keys (by rwa [hframe _ c hc] at hkeys)
    · refine ⟨?_, hpairing, ?_⟩
      · obtain ⟨pairingCode, hphase⟩ := pairedKey_pairing hdoes hpaired
        have hload : loadPublicKeys x.post.vault = .ok (withKey keys key) := by
          rw [hwritten, load_encodeKeys]
        rw [storedKeys_of_load hload]
        intro k hk
        rcases mem_withKey.mp hk with hk | rfl
        · exact h.held _ keys hheld k hk
        · exact h.pairing _ _ hphase
      · intro c read hread
        have hc : c ≠ x.act.1 := by
          rintro rfl
          rw [hnone] at hread
          cases hread
        exact h.held c read (by rwa [hframe _ c hc] at hread)

/-- The keys a `Verify` looks at are stored. -/
theorem mem_verifyKeys {store ok : Bool} {key : ByteArr 32} (h : key ∈ s.verifyKeys store ok) :
    key ∈ s.storedKeys := by
  unfold DaemonState.verifyKeys at h
  split at h
  · cases ok with
    | true => exact h
    | false => cases h
  · cases h

/-! ## What the client is answered -/

theorem daemonEntry_eq_some {y : GateEntry} {x : DaemonEntry} (h : daemonEntry y = some x) :
    y.act = .daemon x.act.1 x.act.2 ∧ y.pre.daemon = x.pre := by
  unfold daemonEntry at h
  split at h
  · rename_i conn act hact
    obtain rfl := Option.some.inj h
    exact ⟨hact, rfl⟩
  · cases h

/-- The step that answers a `Verify` with `true` approves. -/
theorem approved_of_out (hdoes : (daemonMachine dalek).Does x) (hverify : OfVerify x)
    (hout : x.out = some (.authorized true)) : ∃ v entry, approvedVerify x = some (v, entry) := by
  have hcase := does_case hdoes
  obtain ⟨pre, ⟨conn, act⟩, out, post⟩ := x
  simp only at hcase hout
  cases hcase with
  | @approve store v entry hconn hentry hmatches =>
      exact ⟨v, entry, by simp only [approvedVerify, hconn, hentry, Option.map_some]⟩
  | remove hconn => simp [OfVerify, Receives, hconn] at hverify
  | quiet hconn hlocal => cases hlocal <;> cases hout
  | _ => cases hout

/-- An approval is answered `true`. -/
theorem approvedVerify_out {p : VerifyRequest × PendingAuth} (h : approvedVerify x = some p) :
    x.out = some (.authorized true) := by
  unfold approvedVerify at h
  split at h
  · rename_i hout
    exact hout
  · cases h

variable {client : Conn → Prop} {known : ByteArr 32 → Prop}

/-- No key the daemon goes on to pair is known to the client. -/
theorem presented_unknown (hpresents : Along (fun _ y => PresentsOutstanding y) trace)
    (h : Ignorant dalek client known vault trace) :
    Along (fun _ x => ∀ p ∈ presented x.pre x.act.1 x.act.2, ¬ known p.2)
      (trace.filterMap daemonEntry) := by
  refine Along.of_forall_mem fun x hx p hp => ?_
  obtain ⟨y, hy, hentry⟩ := List.mem_filterMap.mp hx
  obtain ⟨hact, hpre⟩ := daemonEntry_eq_some hentry
  have hpair : presentedPair y = some (x.act.1, p.1, p.2) := by
    simp only [presentedPair, hact, hpre, Option.mem_def.mp hp, Option.map_some]
  by_cases hclient : client x.act.1
  · exact absurd (hpresents.forall_mem y hy _ hpair) (h.codes y hy _ _ _ hpair hclient)
  · exact h.paired y hy _ _ _ hpair hclient

/-- An approval rests on a key that was stored, and on a signature under it that the
connection has sent. -/
theorem approval_signed {pre post : List DaemonEntry}
    (hrun : Run (daemonMachine dalek) (DaemonState.initial vault) (pre ++ x :: post) s)
    {v : VerifyRequest} {entry : PendingAuth} (happroved : approvedVerify x = some (v, entry)) :
    ∃ key signature, (∃ l ∈ pre, key ∈ l.pre.storedKeys) ∧
      (∃ r ∈ pre, r.act.1 = x.act.1 ∧ Receives r v) ∧
      signature.1 = (hexDecode v.signature).getD [] ∧ dalek.isKey key = true ∧
      dalek.verify key (v.signed.1 ++ toBeBytes v.timestamp) signature = true := by
  obtain ⟨front, r, l, k, keys, now, i, key, hsteps, hr, ⟨store, ok, -, hl⟩, -, hkey, hverify⟩ :=
    verified_run hrun happroved
  obtain ⟨-, -, key', signature, hsame, hsig, hvalid, hverified⟩ := verifySignature_ok hverify
  obtain rfl := Subtype.ext hsame
  have hmem : key' ∈ l.pre.verifyKeys store ok := hl ▸ List.mem_of_getElem? hkey
  have hrsteps : r ∈ stepsOf x.act.1 pre := by simp [hsteps]
  have hlsteps : l ∈ stepsOf x.act.1 pre := by simp [hsteps]
  exact ⟨key', signature, ⟨l, (mem_stepsOf.mp hlsteps).1, mem_verifyKeys hmem⟩,
    ⟨r, (mem_stepsOf.mp hrsteps).1, (mem_stepsOf.mp hrsteps).2, hr⟩, hsig, hvalid, hverified⟩

/-- **The client approves nothing.** -/
theorem approves_nothing (hrun : Run (gateMachine dalek) (GateState.initial vault) trace g)
    (hpresents : Along (fun _ y => PresentsOutstanding y) trace)
    (h : Ignorant dalek client known vault trace) :
    ∀ x ∈ trace.filterMap daemonEntry, client x.act.1 → approvedVerify x = none := by
  intro x hx hclient
  have hdaemon := daemon_run hrun
  have hunknown := presented_unknown hpresents h
  cases happroved : approvedVerify x with
  | none => rfl
  | some p =>
      exfalso
      obtain ⟨pre, post, hsplit⟩ := List.append_of_mem hx
      rw [hsplit] at hdaemon hunknown
      obtain ⟨key, signature, ⟨l, hl, hstored⟩, ⟨r, hr, hsame, draws, hreceived⟩, hsig, hvalid,
        hverified⟩ := approval_signed hdaemon happroved
      -- the key was in the vault, so the client does not know it
      obtain ⟨pre', post', rfl⟩ := List.append_of_mem hl
      have hloaded := unknown_run hdaemon.split.1.split.1 h.stored
        hunknown.of_append.of_append
      -- but it has signed with it
      have hrtrace : r ∈ trace.filterMap daemonEntry := by
        rw [hsplit]
        exact List.mem_append_left _ hr
      obtain ⟨y, hy, hentry⟩ := List.mem_filterMap.mp hrtrace
      have hsent : sentVerify y = some (x.act.1, p.1) := by
        simp only [sentVerify, (daemonEntry_eq_some hentry).1, hreceived, hsame]
      exact hloaded.stored key hstored
        (h.signs y hy _ _ hsent hclient key signature hsig hvalid hverified)

/-- **The pairing gate**, in runs in which the daemon is presented outstanding codes. -/
theorem pairing_gate (hrun : Run (gateMachine dalek) (GateState.initial vault) trace g)
    (hpresents : Along (fun _ y => PresentsOutstanding y) trace) :
    (∀ y ∈ trace, Gated y) ∧ ∀ client known, Ignorant dalek client known vault trace →
      Refused client (trace.filterMap daemonEntry) := by
  refine ⟨gated_run hrun hpresents, fun client known h => ?_⟩
  have hdaemon := daemon_run hrun
  have hnothing := approves_nothing hrun hpresents h
  refine ⟨?_, ?_⟩
  · intro x hx hclient hverify hout
    obtain ⟨v, entry, happroved⟩ := approved_of_out (hdaemon.does_of_mem hx) hverify hout
    rw [hnothing x hx hclient] at happroved
    cases happroved
  · intro pre x post challengeId notify hsplit hclient hanswered
    rw [hsplit] at hdaemon hnothing
    obtain ⟨v, entry, hmem, -, hnotify, -⟩ :=
      matched_run hdaemon hanswered
    obtain ⟨y, hy, happroved⟩ := List.mem_filterMap.mp hmem
    refine ⟨y, hy, fun hother => ?_, v, entry, happroved, hnotify⟩
    rw [hnothing y (List.mem_append_left _ hy) hother] at happroved
    cases happroved

/-! ## Any code will do -/

/-- **A `Pair` with any code stores its key**, whatever was issued. -/
theorem pair_without_code {conn : Conn} {deviceId pairingCode : ByteString} {draws : Draws}
    {key : ByteArr 32} {keys : List (ByteArr 32)} (hconn : s.handlers conn = some ⟨true, .idle⟩)
    (hcode : pairingCode ≠ []) (hload : loadPublicKeys s.vault = .ok keys) (hnew : key ∉ keys) :
    loadPublicKeys ((daemonMachine dalek).final s
      [(conn, .receive (.ok (.pair deviceId (hexEncode key.1) pairingCode)) draws),
        (conn, .getPassword true), (conn, .setPassword true)]).vault = .ok (keys ++ [key]) := by
  have hslice : ByteArr.ofSlice? 32 key.1 = some key := ByteArr.ofSlice?_eq_some.mpr rfl
  have hwith : withKey keys key = keys ++ [key] := if_neg hnew
  simp [Machine.final, daemonMachine, DaemonState.step, DaemonState.receive,
    DaemonState.receivePair, DaemonState.proceed, DaemonState.respond, DaemonState.goto,
    DaemonState.getPassword, hconn, hcode, hslice, hload, load_encodeKeys, hwith]

def gateTrace (acts : List GateAct) : List GateEntry :=
  (gateMachine sampleDalek).trace (GateState.initial none) acts

/-- Steps of the daemon with none of the workstation between them. -/
def daemonActs (acts : List (Conn × Act)) : List GateAct :=
  acts.map fun a => .daemon a.1 a.2

def forgedVerify : VerifyRequest :=
  { sampleVerify with signature := hexEncode (List.replicate 64 0) }

/-- The phone pairs with the code that was issued; a client sends a `Verify` without
knowing a key. -/
def gatedActs : List GateAct :=
  [.issue (ascii "12345678")] ++ daemonActs (readActs 1 sampleKey ++ [(1, .setPassword true),
    (2, .accept true), (2, .receive (.ok (.verify forgedVerify)) sampleDraws),
    (2, .getPassword true), (2, .checkSignatures fun _ => 1000)])

theorem pairing_gate_sample :
    (gateTrace gatedActs).map (fun y => y.out) = List.replicate 4 none ++
        [some (.paired true), none, none, none, some (.authorized false)] ∧
      (∀ y ∈ gateTrace gatedActs, Gated y) ∧
      Refused (fun conn => conn = 2) ((gateTrace gatedActs).filterMap daemonEntry) := by
  have hpresents : ∀ i : Fin (gateTrace gatedActs).length,
      PresentsOutstanding (gateTrace gatedActs)[i] := by decide +kernel
  have hpaired : (gateTrace gatedActs).filterMap presentedPair =
      [(1, ascii "12345678", sampleKey)] := by decide +kernel
  have hsent : (gateTrace gatedActs).filterMap sentVerify =
      [(2, forgedVerify)] := by decide +kernel
  have honly : ∀ y ∈ gateTrace gatedActs, ∀ p, presentedPair y = some p →
      p = (1, ascii "12345678", sampleKey) := by
    intro y hy p hp
    have hmem := List.mem_filterMap.mpr ⟨y, hy, hp⟩
    rw [hpaired] at hmem
    exact List.mem_singleton.mp hmem
  have hrun : Run (gateMachine sampleDalek) (GateState.initial none) (gateTrace gatedActs) _ :=
    Run.trace _ _ _
  have hgate := pairing_gate hrun (Along.of_take fun i hi => hpresents ⟨i, hi⟩)
  refine ⟨by decide +kernel, hgate.1, hgate.2 _ (fun _ => False) ⟨?_, ?_, ?_, ?_⟩⟩
  · intro y hy conn pairingCode key hp hconn
    have hone := congrArg Prod.fst (honly y hy _ hp)
    simp only [hconn] at hone
    cases hone
  · exact fun _ _ => id
  · exact fun _ _ _ _ _ _ _ => id
  · intro y hy conn v hv _ key signature hsig _ hverified
    have hmem := List.mem_filterMap.mpr ⟨y, hy, hv⟩
    rw [hsent, List.mem_singleton] at hmem
    obtain ⟨-, rfl⟩ := Prod.mk.inj hmem
    have hsample : signature.1 = sampleSignature := by
      simp only [sampleDalek, Bool.and_eq_true, decide_eq_true_eq] at hverified
      exact hverified.2
    rw [hsig] at hsample
    exact absurd hsample (by decide +kernel)

/-- Nothing is issued; a client pairs a key of its own with some code, and approves its
own `Authorize` with it. -/
def ungatedActs : List GateAct :=
  daemonActs (readActs 3 sampleKey ++ [(3, .setPassword true)] ++ authorizeActs ++ [(1, .listen)] ++
    verifyActs ++ [(2, .approve), (1, .check), (1, .remove)])

theorem pairing_gate_fails :
    ((gateTrace ungatedActs).map (fun y => y.out)).filterMap id =
        [.paired true, .authorized true, .authorized true] ∧
      (¬ ∀ vault trace g, Run (gateMachine sampleDalek) (GateState.initial vault) trace g →
        ∀ y ∈ trace, Gated y) ∧
      ¬ ∀ vault trace g, Run (gateMachine sampleDalek) (GateState.initial vault) trace g →
        ∀ client known, Ignorant sampleDalek client known vault trace →
          Refused client (trace.filterMap daemonEntry) := by
  refine ⟨by decide +kernel, fun h => ?_, fun h => ?_⟩
  · have hungated : ∃ i : Fin (gateTrace ungatedActs).length,
        (gateTrace ungatedActs)[i].post.daemon.vault ≠ (gateTrace ungatedActs)[i].pre.daemon.vault ∧
        (match (gateTrace ungatedActs)[i].act with
          | .daemon conn _ => ((gateTrace ungatedActs)[i].pre.admitted conn).isNone
          | _ => true) = true := by decide +kernel
    obtain ⟨i, hchanged, hnone⟩ := hungated
    obtain ⟨conn, _, _, _, _, hact, -, hadmitted⟩ := h none (gateTrace ungatedActs) _
      (Run.trace _ _ _) _ (List.getElem_mem i.2) hchanged
    simp only [Fin.getElem_fin, hact, hadmitted] at hnone
    cases hnone
  · have hcodes : ∀ i : Fin (gateTrace ungatedActs).length,
        (gateTrace ungatedActs)[i].pre.codes = ∅ := by decide +kernel
    have happroved : ((gateTrace ungatedActs).filterMap daemonEntry).filterMap approvedVerify ≠
        [] := by decide +kernel
    have hrun : Run (gateMachine sampleDalek) (GateState.initial none) (gateTrace ungatedActs) _ :=
      Run.trace _ _ _
    have hrefused := h none _ _ hrun (fun _ => True) (fun key => key = sampleKey) ⟨?_, ?_, ?_, ?_⟩
    · obtain ⟨p, hp⟩ := List.exists_mem_of_ne_nil _ happroved
      obtain ⟨x, hx, hp⟩ := List.mem_filterMap.mp hp
      have hdoes := (daemon_run hrun).does_of_mem hx
      obtain ⟨store, hconn⟩ := approvedVerify_phase hdoes hp
      refine hrefused.verify x hx trivial (Or.inr ⟨store, p.1, Or.inr (Or.inr hconn)⟩) ?_
      exact approvedVerify_out hp
    · intro y hy conn pairingCode key _ _ hmem
      obtain ⟨i, hi, rfl⟩ := List.getElem_of_mem hy
      have hempty := hcodes ⟨i, hi⟩
      simp only [Fin.getElem_fin] at hempty
      rw [hempty] at hmem
      simp at hmem
    · intro key hkey
      cases hkey
    · exact fun _ _ _ _ _ _ hother => absurd trivial hother
    · intro y _ conn v _ _ key signature _ hvalid _
      simpa [sampleDalek] using hvalid

end OpenBioUnlock.Daemon

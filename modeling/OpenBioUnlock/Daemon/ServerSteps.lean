import OpenBioUnlock.Daemon.Server

/-!
# What a step of the daemon can do

`StepCase` lists the steps of a task with everything each of them tested and
changed.  Most steps only move a task from one phase to the next and leave what
is shared alone; they are listed apart, as `LocalStep`.  What remains are the
steps that touch the vault, the pending map or a `Notify`.
-/

namespace OpenBioUnlock.Daemon

open Codec Runs

/-- The `Notify` the task of an `Authorize` waits on. -/
def Phase.notify : Phase → Option ℕ
  | .authorizeInsert _ pending => some pending.notify
  | .authorizeListen _ notify => some notify
  | .authorizeWait _ notify => some notify
  | .authorizeRemove _ notify _ => some notify
  | _ => none

variable (dalek : Dalek)

/-- The steps between phases that wait on no `Notify` and change nothing shared. -/
inductive LocalStep (s : DaemonState) (store : Bool) : Phase → Act → Phase → Option Response → Prop
  | refuse {line : Except String Request} {draws : Draws} {message : String} :
      LocalStep s store .idle (.receive line draws) .idle (some (.error message))
  | pair {deviceId publicKey pairingCode : ByteString} {draws : Draws} {key : ByteArr 32}
      (hcode : pairingCode ≠ []) (hstore : store = true)
      (hkey : hexDecode publicKey = some key.1) :
      LocalStep s store .idle (.receive (.ok (.pair deviceId publicKey pairingCode)) draws)
        (.pairLoad key pairingCode) none
  | challenge {draws : Draws} :
      LocalStep s store .idle (.receive (.ok .challenge) draws) .challenge none
  | verify {v : VerifyRequest} {draws : Draws} :
      LocalStep s store .idle (.receive (.ok (.verify v)) draws) (.verifyLoad v) none
  | pairRead {key : ByteArr 32} {pairingCode : ByteString} {ok : Bool}
      {keys : List (ByteArr 32)} (hkeys : loadPublicKeys (s.getPassword ok) = .ok keys) :
      LocalStep s store (.pairLoad key pairingCode) (.getPassword ok)
        (.pairStore key pairingCode keys) none
  | pairUnreadable {key : ByteArr 32} {pairingCode : ByteString} {ok : Bool} :
      LocalStep s store (.pairLoad key pairingCode) (.getPassword ok) .idle
        (some (.paired false))
  | pairUnwritten {key : ByteArr 32} {pairingCode : ByteString} {keys : List (ByteArr 32)} :
      LocalStep s store (.pairStore key pairingCode keys) (.setPassword false) .idle
        (some (.paired false))
  | nothingPending {index : ℕ} :
      LocalStep s store .challenge (.iterate index) .idle (some (.error nothingPending))
  | iterate {index : ℕ} {challengeId : ByteString} {entry : PendingAuth}
      (hentry : s.pending.lookup challengeId = some entry) :
      LocalStep s store .challenge (.iterate index) .idle
        (some (.challenge challengeId (hexEncode entry.nonce.1) entry.timestamp))
  | verifyRead {v : VerifyRequest} {ok : Bool} :
      LocalStep s store (.verifyLoad v) (.getPassword ok) (.verifyCheck v (s.verifyKeys store ok))
        none
  | signed {v : VerifyRequest} {keys : List (ByteArr 32)} {now : ℕ → UInt64}
      (hok : signatureOk dalek v keys now = true) :
      LocalStep s store (.verifyCheck v keys) (.checkSignatures now) (.verifyApprove v) none
  | unsigned {v : VerifyRequest} {keys : List (ByteArr 32)} {now : ℕ → UInt64}
      (hno : signatureOk dalek v keys now = false) :
      LocalStep s store (.verifyCheck v keys) (.checkSignatures now) .idle
        (some (.authorized false))
  | unmatched {v : VerifyRequest}
      (hno : ∀ entry, s.pending.lookup v.challengeId = some entry →
        DaemonState.matchesEntry v entry = false) :
      LocalStep s store (.verifyApprove v) .approve .idle (some (.authorized false))

/-- The steps of the task of `conn`: the state left and the response given. -/
inductive StepCase (s : DaemonState) (conn : Conn) : Act → DaemonState → Option Response → Prop
  | accept {store : Bool} (hconn : s.handlers conn = none) :
      StepCase s conn (.accept store) (s.goto conn store .idle) none
  | close {store : Bool} (hconn : s.handlers conn = some ⟨store, .idle⟩) :
      StepCase s conn .close { s with handlers := Function.update s.handlers conn none } none
  | quiet {store : Bool} {p q : Phase} {act : Act} {response : Option Response}
      (hconn : s.handlers conn = some ⟨store, p⟩)
      (hlocal : LocalStep dalek s store p act q response) :
      StepCase s conn act (s.goto conn store q) response
  | store {store : Bool} {key : ByteArr 32} {pairingCode : ByteString}
      {keys : List (ByteArr 32)}
      (hconn : s.handlers conn = some ⟨store, .pairStore key pairingCode keys⟩) :
      StepCase s conn (.setPassword true)
        ({ s with vault := some (encodeKeys (withKey keys key)) }.goto conn store .idle)
        (some (.paired true))
  | authorize {store : Bool} {user : ByteString} {draws : Draws} {nonce : ByteArr 32}
      (hconn : s.handlers conn = some ⟨store, .idle⟩) (hnonce : draws.nonce = .ok nonce) :
      StepCase s conn (.receive (.ok (.authorize user)) draws)
        ({ s with notifies := s.notifies + 1 }.goto conn store (.authorizeInsert
          (hexEncode ((draws.challengeId.map Subtype.val).getD (List.replicate 32 0)))
          ⟨nonce, draws.now, false, s.notifies⟩)) none
  | insert {store : Bool} {challengeId : ByteString} {pending : PendingAuth}
      (hconn : s.handlers conn = some ⟨store, .authorizeInsert challengeId pending⟩) :
      StepCase s conn .insert
        ({ s with pending := s.pending.insert challengeId pending }.goto conn store
          (.authorizeListen challengeId pending.notify)) none
  | listen {store : Bool} {challengeId : ByteString} {notify : ℕ}
      (hconn : s.handlers conn = some ⟨store, .authorizeListen challengeId notify⟩) :
      StepCase s conn .listen
        ({ s with waiters := Function.update s.waiters notify .waiting }.goto conn store
          (.authorizeWait challengeId notify)) none
  | check {store : Bool} {challengeId : ByteString} {notify : ℕ} {q : Phase}
      (hconn : s.handlers conn = some ⟨store, .authorizeWait challengeId notify⟩)
      (hnotified : s.waiters notify = .notified)
      (hq : q = if s.isAuthorized challengeId then .authorizeRemove challengeId notify true
        else .authorizeListen challengeId notify) :
      StepCase s conn .check
        ({ s with waiters := Function.update s.waiters notify .absent }.goto conn store q) none
  | timeout {store : Bool} {challengeId : ByteString} {notify : ℕ}
      (hconn : s.handlers conn = some ⟨store, .authorizeWait challengeId notify⟩) :
      StepCase s conn .timeout
        ({ s with waiters := Function.update s.waiters notify .absent }.goto conn store
          (.authorizeRemove challengeId notify false)) none
  | remove {store : Bool} {challengeId : ByteString} {notify : ℕ} {authorized : Bool}
      (hconn : s.handlers conn =
        some ⟨store, .authorizeRemove challengeId notify authorized⟩) :
      StepCase s conn .remove
        ({ s with pending := s.pending.erase challengeId }.goto conn store .idle)
        (some (.authorized authorized))
  | approve {store : Bool} {v : VerifyRequest} {entry : PendingAuth}
      (hconn : s.handlers conn = some ⟨store, .verifyApprove v⟩)
      (hentry : s.pending.lookup v.challengeId = some entry)
      (hmatches : DaemonState.matchesEntry v entry = true) :
      StepCase s conn .approve ((s.approved v.challengeId entry).goto conn store .idle)
        (some (.authorized true))

variable {dalek} {s s' : DaemonState} {conn : Conn} {response : Option Response}

/-- The `Pair` arm refuses, or goes on to the store. -/
theorem receivePair_case {store : Bool} {deviceId publicKey pairingCode : ByteString}
    {draws : Draws} (hconn : s.handlers conn = some ⟨store, .idle⟩) :
    StepCase dalek s conn (.receive (.ok (.pair deviceId publicKey pairingCode)) draws)
      (s.receivePair conn store publicKey pairingCode).1
      (s.receivePair conn store publicKey pairingCode).2 := by
  unfold DaemonState.receivePair
  by_cases hcode : pairingCode = []
  · rw [if_pos hcode]
    exact .quiet hconn .refuse
  · rw [if_neg hcode]
    cases hstore : store with
    | false => exact .quiet (hstore ▸ hconn) .refuse
    | true =>
        cases hbytes : hexDecode publicKey with
        | none => exact .quiet (hstore ▸ hconn) .refuse
        | some bytes =>
            cases hkey : ByteArr.ofSlice? 32 bytes with
            | none =>
                simp only [hkey]
                exact .quiet (hstore ▸ hconn) .refuse
            | some key =>
                simp only [hkey]
                have hdecoded : hexDecode publicKey = some key.1 := by
                  rw [hbytes, ByteArr.ofSlice?_eq_some.mp hkey]
                exact .quiet (hstore ▸ hconn) (.pair hcode rfl hdecoded)

/-- What a line is answered with, or leads to. -/
theorem receive_case {store : Bool} {line : Except String Request} {draws : Draws}
    (hconn : s.handlers conn = some ⟨store, .idle⟩) :
    StepCase dalek s conn (.receive line draws) (s.receive conn store line draws).1
      (s.receive conn store line draws).2 := by
  cases line with
  | error error => exact .quiet hconn .refuse
  | ok request =>
      cases request with
      | pair deviceId publicKey pairingCode => exact receivePair_case hconn
      | challenge => exact .quiet hconn .challenge
      | verify v => exact .quiet hconn .verify
      | authorize user =>
          simp only [DaemonState.receive, DaemonState.receiveAuthorize]
          cases hnonce : draws.nonce with
          | error error => exact .quiet hconn .refuse
          | ok nonce => exact .authorize hconn hnonce

/-- **Every step is one of the cases.** -/
theorem step_case {act : Act} (h : s.step dalek conn act = some (s', response)) :
    StepCase dalek s conn act s' response := by
  unfold DaemonState.step at h
  split at h
  · rename_i store hconn
    cases h
    exact .accept hconn
  · rename_i store hconn
    cases h
    exact .close hconn
  · rename_i store line draws hconn
    obtain ⟨rfl, rfl⟩ := Prod.mk.inj (Option.some.inj h)
    exact receive_case hconn
  · rename_i store key pairingCode ok hconn
    split at h
    · rename_i keys hkeys
      cases h
      exact .quiet hconn (.pairRead hkeys)
    · cases h
      exact .quiet hconn .pairUnreadable
  · rename_i store key pairingCode keys ok hconn
    cases ok with
    | true =>
        cases h
        exact .store hconn
    | false =>
        cases h
        exact .quiet hconn .pairUnwritten
  · rename_i store challengeId pending hconn
    cases h
    exact .insert hconn
  · rename_i store challengeId notify hconn
    cases h
    exact .listen hconn
  · rename_i store challengeId notify hconn
    split at h
    · rename_i hnotified
      cases hauthorized : s.isAuthorized challengeId with
      | true =>
          simp only [hauthorized, if_true] at h
          cases h
          exact .check hconn hnotified (by rw [hauthorized, if_pos rfl])
      | false =>
          simp only [hauthorized, Bool.false_eq_true, if_false] at h
          cases h
          exact .check hconn hnotified (by rw [hauthorized]; rfl)
    · cases h
  · rename_i store challengeId notify hconn
    cases h
    exact .timeout hconn
  · rename_i store challengeId notify authorized hconn
    cases h
    exact .remove hconn
  · rename_i store index hconn
    split at h
    · cases h
      exact .quiet hconn .nothingPending
    · obtain ⟨entry, hentry, h⟩ := Option.map_eq_some_iff.mp h
      cases h
      exact .quiet hconn (.iterate (AList.mem_lookup_iff.mpr (List.mem_of_getElem? hentry)))
  · rename_i store v ok hconn
    cases h
    exact .quiet hconn .verifyRead
  · rename_i store v keys now hconn
    cases hok : signatureOk dalek v keys now with
    | true =>
        simp only [hok, if_true] at h
        cases h
        exact .quiet hconn (.signed hok)
    | false =>
        simp only [hok, Bool.false_eq_true, if_false] at h
        cases h
        exact .quiet hconn (.unsigned hok)
  · rename_i store v hconn
    split at h
    · rename_i hnone
      cases h
      refine .quiet hconn (.unmatched fun entry hentry => ?_)
      rw [hnone] at hentry
      cases hentry
    · rename_i entry hentry
      cases hmatches : DaemonState.matchesEntry v entry with
      | true =>
          simp only [hmatches, if_true] at h
          cases h
          exact .approve hconn hentry hmatches
      | false =>
          simp only [hmatches, Bool.false_eq_true, if_false] at h
          cases h
          refine .quiet hconn (.unmatched fun entry' hentry' => ?_)
          obtain rfl := Option.some.inj (hentry.symm.trans hentry')
          exact hmatches
  · cases h

/-- The step a run records. -/
theorem does_case {x : DaemonEntry} (hdoes : (daemonMachine dalek).Does x) :
    StepCase dalek x.pre x.act.1 x.act.2 x.post x.out :=
  step_case hdoes

/-- A local step starts and ends in phases that wait on no `Notify`. -/
theorem LocalStep.notify {store : Bool} {p q : Phase} {act : Act}
    (h : LocalStep dalek s store p act q response) : p.notify = none ∧ q.notify = none := by
  cases h <;> exact ⟨rfl, rfl⟩

end OpenBioUnlock.Daemon

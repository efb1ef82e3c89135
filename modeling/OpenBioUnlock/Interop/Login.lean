import OpenBioUnlock.Daemon.Conversation
import OpenBioUnlock.Interop.LoginAdapters
import OpenBioUnlock.Interop.Replies

/-!
# A login on Linux

`pam_sm_authenticate` on one connection of the daemon, with everything else that goes on
there.  The daemon reads what the PAM module has written, in lines, and the PAM module
reads what the daemon has written on the connection, as far as it has come.

`login_approved` says what a `PAM_SUCCESS` rests on, for any user name: an approval of the
very request that the connection waited for, with a signature that was fresh and of a
paired key.  `logins_counted` says that no approval is good for two logins.
-/

namespace OpenBioUnlock.Interop

open Codec Pam Runs
open Daemon (Conn DaemonEntry DaemonState Dalek PendingAuth daemonMachine linesOf responsesOf
  stepsOf answeredAuthorize insertedEntry approvedVerify)

/-! ## The request -/

/-- **The first line of a request asks for an authorization**, if for anything, whatever the
name of the user. -/
theorem first_line {serde : Daemon.SerdeJson} {username : CString}
    {line : Except String Daemon.Request} {more : List (Except String Daemon.Request)}
    (h : line :: more <+: Daemon.requests serde (request username)) {r : Daemon.Request}
    (hline : line = .ok r) : ∃ user, r = .authorize user := by
  have hhead : 10 ∉ Daemon.authorizeHead := by decide
  have hlast : Daemon.authorizeHead.getLast? ≠ some 13 := by decide
  have hlines : lines (request username) =
      linesFrom (Daemon.authorizeHead ++ []) ((username.1 ++ [34, 125]) ++ [10]) := by
    rw [request_eq, List.append_assoc, lines, linesFrom_append hhead, List.nil_append,
      List.append_nil]
  unfold Daemon.requests at h
  cases hall : lines (request username) with
  | nil => simp [hall] at h
  | cons first rest =>
      rw [hall, List.takeWhile_cons] at h
      split_ifs at h with hvalid
      · rw [List.map_cons, List.cons_prefix_cons] at h
        obtain ⟨s, rfl⟩ := linesFrom_begins hlast (hlines.symm.trans hall)
        exact Daemon.authorize_of_parse (serde.sound _ _ (h.1.symm.trans hline))
      · simp at h

/-! ## The reply -/

/-- The bytes that can be read from the socket. -/
def bytesRead (reads : List Received) : Pam.Bytes :=
  reads.filterMap fun
    | .byte b => some b
    | _ => none

theorem takeWhile_of_prefix {p : UInt8 → Bool} {part text : Pam.Bytes} (h : part <+: text) :
    part.takeWhile p <+: text.takeWhile p := by
  obtain ⟨rest, rfl⟩ := h
  rw [List.takeWhile_append]
  split_ifs with hall
  · exact (List.takeWhile_prefix p).trans (List.prefix_append _ _)
  · exact List.prefix_rfl

/-- What a text begins with holds no more patterns than the text. -/
theorem strstr_of_isPrefix {part text pattern : Pam.Bytes} (h : part <+: text)
    (hfound : strstr part pattern = true) : strstr text pattern = true := by
  obtain ⟨tail, htail, hpattern⟩ := List.any_eq_true.mp hfound
  obtain ⟨front, hfront⟩ := (List.mem_tails _ _).mp htail
  obtain ⟨rest, hrest⟩ := takeWhile_of_prefix (p := (· ≠ 0)) h
  refine List.any_eq_true.mpr ⟨tail ++ rest, (List.mem_tails _ _).mpr ⟨front, ?_⟩, ?_⟩
  · rw [← List.append_assoc, hfront, hrest]
  · rw [List.isPrefixOf_iff_prefix] at hpattern ⊢
    exact hpattern.trans (List.prefix_append _ _)

/-- **The first response approves**, if what is read of the responses does. -/
theorem first_response {responses : List Daemon.Response} {reads : List Received}
    (hreads : bytesRead reads <+: responses.flatMap encodedResponse)
    (happroves : responseIsAuthorized (replyLine reads) = true) :
    ∃ more, responses = .authorized true :: more := by
  have hline : replyLine reads <+: (responses.flatMap encodedResponse).takeWhile (· ≠ 10) :=
    takeWhile_of_prefix hreads
  cases responses with
  | nil =>
      rw [List.flatMap_nil, List.takeWhile_nil, List.prefix_nil] at hline
      rw [hline] at happroves
      exact absurd happroves (by decide)
  | cons r more =>
      have hfirst : ((r :: more).flatMap encodedResponse).takeWhile (· ≠ 10) = responseText r := by
        rw [List.flatMap_cons, encodedResponse, List.append_assoc, List.takeWhile_append_of_pos]
        · simp
        · intro b hb
          refine decide_eq_true ?_
          rintro rfl
          exact lf_not_mem_responseText r hb
      rw [hfirst] at hline
      rw [responseIsAuthorized, Bool.and_eq_true] at happroves
      have hwhole : responseIsAuthorized (responseText r) = true := by
        rw [responseIsAuthorized, Bool.and_eq_true]
        exact happroves.imp (strstr_of_isPrefix hline) (strstr_of_isPrefix hline)
      rw [(responseIsAuthorized_responseText r).mp hwhole]
      exact ⟨more, rfl⟩

/-! ## The login -/

/-- A call of `pam_sm_authenticate` on a connection of the daemon: what the task has taken
is what the call has sent, and what the call reads is what the task has written, each as
far as it has come. -/
structure Session (serde : Daemon.SerdeJson) (env : PamEnv) (conn : Conn)
    (tr : List DaemonEntry) : Prop where
  requests : linesOf conn tr <+: Daemon.requests serde (pamSmAuthenticate env).sent
  replies : bytesRead env.reads <+: (responsesOf conn tr).flatMap encodedResponse

variable {serde : Daemon.SerdeJson} {dalek : Dalek} {vault : Option Daemon.ByteString}
variable {tr pre post : List DaemonEntry} {s : DaemonState} {x : DaemonEntry} {conn : Conn}
variable {env : PamEnv}

theorem linesOf_of_isPrefix (conn : Conn) (pre post : List DaemonEntry) :
    linesOf conn pre <+: linesOf conn (pre ++ post) := by
  rw [linesOf, linesOf, stepsOf, stepsOf, List.filter_append, List.filterMap_append]
  exact List.prefix_append _ _

/-- The step that gives the first response on a connection. -/
theorem first_step {r : Daemon.Response} {more : List Daemon.Response}
    (h : responsesOf conn tr = r :: more) : ∃ pre x post, tr = pre ++ x :: post ∧
      x.act.1 = conn ∧ x.out = some r ∧ responsesOf conn pre = [] := by
  obtain ⟨before, x, after, hsteps, hbefore, hout, -⟩ := List.filterMap_eq_cons_iff.mp h
  obtain ⟨pre, post, rfl, hpre, hpost⟩ := List.filter_eq_append_iff.mp hsteps
  obtain ⟨mid, rest, rfl, hmid, hx, -⟩ := List.filter_eq_cons_iff.mp hpost
  have hnone : stepsOf conn mid = [] := List.filter_eq_nil_iff.mpr hmid
  refine ⟨pre ++ mid, x, rest, by rw [List.append_assoc], of_decide_eq_true hx, hout, ?_⟩
  rw [responsesOf, stepsOf, List.filter_append]
  change List.filterMap _ (stepsOf conn pre ++ stepsOf conn mid) = []
  rw [hnone, List.append_nil, stepsOf, hpre]
  exact List.filterMap_eq_nil_iff.mpr hbefore

/-- **A successful call was answered by its own `Authorize`.** -/
theorem answered_of_success (hrun : Run (daemonMachine dalek) (DaemonState.initial vault) tr s)
    (hsession : Session serde env conn tr) (hsuccess : (pamSmAuthenticate env).result = some .success) :
    ∃ pre x post challengeId notify, tr = pre ++ x :: post ∧ x.act.1 = conn ∧
      answeredAuthorize x = some (challengeId, notify, true) := by
  obtain ⟨username, -, hsent, happroves⟩ := pam_success hsuccess
  obtain ⟨more, hresponses⟩ := first_response hsession.replies happroves
  obtain ⟨pre, x, post, rfl, rfl, hout, hnone⟩ := first_step hresponses
  obtain ⟨hpre, hdoes⟩ := hrun.split
  rcases Daemon.authorized_step hdoes hout with ⟨challengeId, notify, hanswered⟩ |
    ⟨-, v, entry, happroved⟩
  · exact ⟨pre, x, post, challengeId, notify, rfl, rfl, hanswered⟩
  · -- a `Verify` would be the first line taken
    obtain ⟨store, hconn⟩ := Daemon.approvedVerify_phase hdoes happroved
    obtain ⟨request, front, hserves, hlines, hanswers⟩ :=
      (Daemon.converses_run hpre x.act.1).busy hconn (by simp)
    rw [hnone] at hanswers
    cases hanswers
    cases hserves
    have hfirst := (linesOf_of_isPrefix x.act.1 pre (x :: post)).trans hsession.requests
    rw [hlines, List.nil_append, hsent] at hfirst
    obtain ⟨user, huser⟩ := first_line hfirst rfl
    cases huser

/-! ## What a login rests on -/

/-- The user who logs in while the phone approves. -/
def loginName : CString := ⟨ascii "user", by decide⟩

theorem login_session :
    Session .unlimited (sampleEnv loginName) 1 Daemon.authorizedTrace where
  requests := by
    have hlines : linesOf 1 Daemon.authorizedTrace = [.ok (.authorize loginName.1)] := by
      decide +kernel
    have hsent : (pamSmAuthenticate (sampleEnv loginName)).sent = request loginName := by
      decide +kernel
    have hplain : ∀ c ∈ loginName.1, Json.IsPlain c := by decide +kernel
    rw [hlines, hsent, requests_line (by decide +kernel) hplain]
    have htake : (request loginName).take (request loginName).length = request loginName :=
      List.take_length
    rw [← htake]
    exact lines_taken hplain (Nat.le_succ _)
  replies := by decide +kernel

/-- Two elements of which a function keeps the same are one, if it keeps nothing twice. -/
theorem eq_of_nodup_filterMap {α β : Type} {f : α → Option β} {xs : List α}
    (h : (xs.filterMap f).Nodup) {x y : α} {b : β} (hx : x ∈ xs) (hy : y ∈ xs)
    (hfx : f x = some b) (hfy : f y = some b) : x = y := by
  rw [List.Nodup, List.pairwise_filterMap] at h
  have hsymm : Std.Symm fun x y => ∀ b, f x = some b → ∀ b', f y = some b' → b ≠ b' :=
    ⟨fun x y hxy b hb b' hb' heq => hxy b' hb' b hb heq.symm⟩
  by_contra hne
  exact h.forall hx hy hne b hfx b hfy rfl

/-- The connection has had an `Authorize` granted that waited on the `Notify`. -/
def GrantedOn (tr : List DaemonEntry) (conn : Conn) (notify : ℕ) : Prop :=
  ∃ x ∈ tr, x.act.1 = conn ∧ ∃ challengeId, answeredAuthorize x = some (challengeId, notify, true)

/-- What is granted was approved. -/
theorem GrantedOn.approved {notify : ℕ}
    (hrun : Run (daemonMachine dalek) (DaemonState.initial vault) tr s)
    (h : GrantedOn tr conn notify) : notify ∈ Daemon.approvedNotifies tr := by
  obtain ⟨x, hx, -, challengeId, hanswered⟩ := h
  obtain ⟨pre, post, rfl⟩ := List.append_of_mem hx
  obtain ⟨v, entry, happroved, -, rfl, -, -⟩ := Daemon.matched_run hrun hanswered
  refine List.mem_map.mpr ⟨(v, entry), ?_, rfl⟩
  rw [List.filterMap_append]
  exact List.mem_append_left _ happroved

/-- A `Notify` is granted on one connection. -/
theorem GrantedOn.unique {notify : ℕ} {conn' : Conn}
    (hrun : Run (daemonMachine dalek) (DaemonState.initial vault) tr s)
    (h : GrantedOn tr conn notify) (h' : GrantedOn tr conn' notify) : conn = conn' := by
  obtain ⟨x, hx, rfl, challengeId, hanswered⟩ := h
  obtain ⟨x', hx', rfl, challengeId', hanswered'⟩ := h'
  have honce := (Daemon.owners_run hrun).once
  rw [Daemon.answeredNotifies, List.map_filterMap] at honce
  rw [eq_of_nodup_filterMap honce hx hx' (by rw [hanswered]; rfl) (by rw [hanswered']; rfl)]

/-- **No approval is good for two logins**: there are as many as there are connections that
succeed. -/
theorem logins_counted (hrun : Run (daemonMachine dalek) (DaemonState.initial vault) tr s)
    {conns : List Conn} (hnodup : conns.Nodup)
    (hlogins : ∀ conn ∈ conns, ∃ serde env, Session serde env conn tr ∧
      (pamSmAuthenticate env).result = some .success) :
    conns.length ≤ (tr.filterMap approvedVerify).length := by
  have hgranted : ∀ conn : Conn, ∃ notify, conn ∈ conns → GrantedOn tr conn notify := by
    intro conn
    by_cases hconn : conn ∈ conns
    · obtain ⟨serde, env, hsession, hsuccess⟩ := hlogins conn hconn
      obtain ⟨pre, x, post, challengeId, notify, rfl, hx, hanswered⟩ :=
        answered_of_success hrun hsession hsuccess
      exact ⟨notify, fun _ => ⟨x, by simp, hx, challengeId, hanswered⟩⟩
    · exact ⟨0, fun h => absurd h hconn⟩
  choose notify hnotify using hgranted
  have hdistinct : (conns.map notify).Nodup := by
    refine hnodup.map_on fun c hc c' hc' heq => (hnotify c hc).unique hrun ?_
    rw [heq]
    exact hnotify c' hc'
  have hsubset : conns.map notify ⊆ Daemon.approvedNotifies tr := by
    intro n hn
    obtain ⟨c, hc, rfl⟩ := List.mem_map.mp hn
    exact (hnotify c hc).approved hrun
  have hlength := (hdistinct.subperm hsubset).length_le
  rwa [List.length_map, Daemon.approvedNotifies, List.length_map] at hlength

theorem logins_counted_sample :
    [1].length ≤ (Daemon.authorizedTrace.filterMap approvedVerify).length := by
  refine logins_counted (Run.trace _ _ _) (by decide) fun conn hconn => ?_
  rw [List.mem_singleton] at hconn
  subst hconn
  exact ⟨_, _, login_session, by decide +kernel⟩

end OpenBioUnlock.Interop

import OpenBioUnlock.Pam.Encoding
import OpenBioUnlock.Windows.CredentialProvider

/-!
# The two login adapters

The PAM module and the Windows credential provider are clients of one daemon.  The
PAM module sends an `authorize` request and succeeds when the line it reads back
approves it (`pam_success`).  `PipeApproval` sends a `challenge` request, reads
nothing, and succeeds when the request was written.

`pipe_approval_iff` compares them at every endpoint, whatever it takes and whatever it
replies: what `PipeApproval` reports as a success is never an approval.
-/

namespace OpenBioUnlock.Interop

open Codec Pam Windows

/-- What the endpoint of the daemon does once an adapter is connected: what it takes
of the request, and what can be read from it. -/
structure Endpoint where
  report : WriteReport
  replies : List Received

/-- A call of `pam_sm_authenticate` that reads the replies returns `PAM_SUCCESS`. -/
def PamSucceeds (replies : List Received) : Prop :=
  ∃ env : PamEnv, env.reads = replies ∧ (pamSmAuthenticate env).result = some .success

/-- **The endpoint approves**: the daemon reads an authorization request in what
`PipeApproval` sent, and the reply is one for which `pam_sm_authenticate` succeeds. -/
structure Approves (serde : Daemon.SerdeJson) (endpoint : Endpoint) : Prop where
  requested : ∃ user,
    .ok (.authorize user) ∈ Daemon.requests serde (pipeApproval (.ok endpoint.report)).sent
  replied : PamSucceeds endpoint.replies

/-- `PipeApproval` succeeds only where the endpoint approves. -/
def AgreesWithPam (serde : Daemon.SerdeJson) (endpoint : Endpoint) : Prop :=
  succeeded (pipeApproval (.ok endpoint.report)).result = true → Approves serde endpoint

/-- The endpoint takes the whole request. -/
def Endpoint.TakesRequest (endpoint : Endpoint) : Prop :=
  endpoint.report.ok = true ∧ endpoint.report.written.toNat = approvalRequest.length

/-! ## What the PAM module goes by -/

/-- The line that can be read. -/
def replyLine (replies : List Received) : Pam.Bytes :=
  (replies.filterMap fun | .byte b => some b | _ => none).takeWhile (· ≠ 10)

/-- **The line read is the line replied**, however the calls of `poll` and `read` go. -/
theorem readLine_eq {capacity : ℕ} {buffer line : Pam.Bytes} {poller : Poller}
    {reads : List Received} (h : readLine capacity buffer poller reads = some (some line)) :
    line = buffer ++ replyLine reads := by
  fun_induction readLine capacity buffer poller reads with
  | case5 _ _ _ _ _ _ ih =>
      rw [ih h]
      simp [replyLine]
  | case7 =>
      cases h
      simp [replyLine]
  | case8 _ _ _ _ _ _ _ hb ih =>
      rw [ih h]
      simp [replyLine, hb]
  | _ => cases h

/-- **`PAM_SUCCESS` means that the request was sent and the reply approves.** -/
theorem pam_success {env : PamEnv} (h : (pamSmAuthenticate env).result = some .success) :
    ∃ username, env.username = some username ∧ (pamSmAuthenticate env).sent = request username ∧
      responseIsAuthorized (replyLine env.reads) = true := by
  cases husername : env.username with
  | none => simp [pamSmAuthenticate, husername] at h
  | some username =>
      refine ⟨username, rfl, ?_⟩
      have hsends := writeAll_sends env.poller env.writes (Nat.zero_le (request username).length)
      -- every way through but the one with a reply ends in `PAM_AUTH_ERR`, or waits
      simp only [pamSmAuthenticate, husername] at h ⊢
      split_ifs at h ⊢ with hconnected
      · cases hresult : (writeAll (request username) 0 env.poller env.writes).result with
        | none => simp [hresult] at h
        | some done =>
            cases done with
            | false => simp [hresult] at h
            | true =>
                cases hline : readLine responseCapacity []
                    (writeAll (request username) 0 env.poller env.writes).poller env.reads with
                | none => simp [hresult, hline] at h
                | some reply =>
                    cases reply with
                    | none => simp [hresult, hline] at h
                    | some line =>
                        have hreply := readLine_eq hline
                        simp only [hresult, hline, Option.some.injEq] at h ⊢
                        refine ⟨?_, ?_⟩
                        · rw [hsends.sent, hsends.complete hresult]
                          simp
                        · rw [List.nil_append] at hreply
                          rw [← hreply]
                          by_contra hno
                          simp [hno] at h
      · cases h

/-! ## What `PipeApproval` asks for -/

/-- The request without its line feed. -/
def approvalLine : Pam.Bytes :=
  123 :: 34 :: (ascii "type" ++ 34 :: 58 :: 34 :: (ascii "challenge" ++ 34 :: [125]))

theorem parse_approvalLine : Json.parse approvalLine =
    some (.object [(ascii "type", .string (ascii "challenge"))]) := by
  have hfuel : 2 * approvalLine.length + 2 = 39 + 3 := by decide
  have hread : Json.stringFrom .plain (ascii "challenge" ++ 34 :: [125]) =
      some (ascii "challenge", [125]) := Json.stringFrom_plain (by decide +kernel) [125]
  have hnext : Json.next [125] = some (125, []) := Json.next_cons rfl []
  rw [Json.parse, hfuel, approvalLine, Json.value_brace rfl,
    Json.members_string Daemon.plain_type, hread]
  simp only [Option.bind_some, hnext]
  rfl

/-- The daemon reads one request in it, for the pending challenge. -/
theorem requests_approvalRequest (serde : Daemon.SerdeJson) :
    Daemon.requests serde approvalRequest = [.ok .challenge] := by
  have hlines : lines approvalRequest = [approvalLine] := by decide +kernel
  have hvalid : validUtf8 approvalLine = true := by decide +kernel
  have hread := serde.complete _ _ .challenge parse_approvalLine (by simp) (by decide +kernel)
  rw [Daemon.requests, hlines, List.takeWhile_cons, hvalid]
  simp only [if_true, List.takeWhile_nil, List.map_cons, List.map_nil, hread]

/-- **No endpoint approves a call that succeeds**: the daemon is not asked to. -/
theorem not_approves {serde : Daemon.SerdeJson} {endpoint : Endpoint}
    (h : succeeded (pipeApproval (.ok endpoint.report)).result = true) :
    ¬ Approves serde endpoint := by
  rintro ⟨⟨user, hmem⟩, -⟩
  rw [sent_of_succeeded h, requests_approvalRequest, List.mem_singleton] at hmem
  cases hmem

/-- **The adapters agree at an endpoint exactly if it does not take the whole
request.** -/
theorem pipe_approval_iff (serde : Daemon.SerdeJson) (endpoint : Endpoint) :
    AgreesWithPam serde endpoint ↔ ¬ endpoint.TakesRequest := by
  constructor
  · intro hagrees htakes
    have hsucceeded := succeeded_pipeApproval.mpr htakes
    exact not_approves hsucceeded (hagrees hsucceeded)
  · intro hpart hsucceeded
    exact absurd (succeeded_pipeApproval.mp hsucceeded) hpart

/-- An endpoint that takes the request and replies that nothing is pending. -/
def refusingEndpoint : Endpoint where
  report := ⟨true, 21⟩
  replies := (ascii ("\x7b\"type\":\"error\",\"message\":" ++
    "\"no workstation authentication request is pending\"\x7d\n")).map .byte

theorem pipe_approval_fails :
    (pipeApproval (.ok refusingEndpoint.report)).result = sOk ∧
      ¬ PamSucceeds refusingEndpoint.replies ∧
      ¬ ∀ serde endpoint, AgreesWithPam serde endpoint := by
  have hreply : responseIsAuthorized (replyLine refusingEndpoint.replies) = false := by
    decide +kernel
  have hno : ¬ PamSucceeds refusingEndpoint.replies := by
    rintro ⟨env, hreads, hsuccess⟩
    obtain ⟨_, -, -, happroves⟩ := pam_success hsuccess
    rw [hreads, hreply] at happroves
    cases happroves
  have hok : (pipeApproval (.ok refusingEndpoint.report)).result = sOk := by decide +kernel
  refine ⟨hok, hno, fun h => ?_⟩
  have hsucceeded : succeeded (pipeApproval (.ok refusingEndpoint.report)).result = true := by
    rw [hok]
    rfl
  exact hno (h Daemon.SerdeJson.unlimited refusingEndpoint hsucceeded).replied

end OpenBioUnlock.Interop

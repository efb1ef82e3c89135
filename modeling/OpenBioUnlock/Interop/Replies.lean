import Mathlib.Data.List.Infix
import OpenBioUnlock.Codec.JsonText
import OpenBioUnlock.Daemon.Server
import OpenBioUnlock.Pam.Encoding

/-!
# Replies of the daemon, as the PAM module reads them

The daemon serialises a `Response` as one line of JSON (`encodedResponse`).  The PAM
module reads it byte by byte, however the bytes arrive (`readLine_delivers`), and searches
the line for two patterns.

`success_iff_authorized` says that the search does as well as reading the JSON would:
`pam_sm_authenticate` succeeds on exactly one response.
-/

namespace OpenBioUnlock.Interop

open Codec Pam

/-! ## The text of a response -/

/-- The UTF-8 bytes of a string. -/
def utf8 (text : String) : Pam.Bytes :=
  text.toList.flatMap String.utf8EncodeChar

/-- What `serde` writes of a `Response`: the tag, and the fields. -/
def responseMembers : Daemon.Response → List Json.Member
  | .paired accepted =>
      [(ascii "type", .string (ascii "paired")), (ascii "accepted", boolean accepted)]
  | .challenge challengeId nonce timestamp =>
      [(ascii "type", .string (ascii "challenge")), (ascii "challenge_id", .string challengeId),
        (ascii "nonce", .string nonce), (ascii "timestamp", .token (Json.decimal timestamp.toNat))]
  | .authorized authorized =>
      [(ascii "type", .string (ascii "authorized")), (ascii "authorized", boolean authorized)]
  | .error message =>
      [(ascii "type", .string (ascii "error")), (ascii "message", .string (utf8 message))]
where
  boolean (b : Bool) : Json.Scalar := .token (ascii (if b then "true" else "false"))

/-- `serde_json::to_vec`. -/
def responseText (r : Daemon.Response) : Pam.Bytes :=
  Json.objectText (responseMembers r)

/-- The line `handle_stream` writes. -/
def encodedResponse (r : Daemon.Response) : Pam.Bytes :=
  responseText r ++ [10]

theorem responseMembers_ok (r : Daemon.Response) : ∀ m ∈ responseMembers r, m.Ok := by
  -- the names are fixed; the tokens are numbers and words
  have hnames : ∀ name ∈ [ascii "type", ascii "accepted", ascii "challenge_id", ascii "nonce",
      ascii "timestamp", ascii "authorized", ascii "message"], ∀ c ∈ name, Json.IsName c := by
    have hall : [ascii "type", ascii "accepted", ascii "challenge_id", ascii "nonce",
        ascii "timestamp", ascii "authorized", ascii "message"].all
          (fun name => name.all fun c => Json.IsName c) = true := by
      decide +kernel
    intro name hname c hc
    exact of_decide_eq_true (List.all_eq_true.mp (List.all_eq_true.mp hall name hname) c hc)
  have hboolean : ∀ b : Bool, ∀ c ∈ ascii (if b then "true" else "false"), Json.IsPlain c := by
    decide +kernel
  have htext : ∀ {name text : Pam.Bytes}, (∀ c ∈ name, Json.IsName c) →
      Json.Member.Ok (name, .string text) := fun hname => ⟨hname, by simp⟩
  have htoken : ∀ {name text : Pam.Bytes}, (∀ c ∈ name, Json.IsName c) →
      (∀ c ∈ text, Json.IsPlain c) → Json.Member.Ok (name, .token text) := by
    intro name text hname hplain
    refine ⟨hname, fun text' heq => ?_⟩
    cases heq
    exact hplain
  intro m hm
  cases r with
  | paired accepted =>
      simp only [responseMembers, List.mem_cons, List.not_mem_nil, or_false] at hm
      rcases hm with rfl | rfl
      · exact htext (hnames _ (by simp))
      · exact htoken (hnames _ (by simp)) (hboolean accepted)
  | challenge challengeId nonce timestamp =>
      simp only [responseMembers, List.mem_cons, List.not_mem_nil, or_false] at hm
      rcases hm with rfl | rfl | rfl | rfl
      · exact htext (hnames _ (by simp))
      · exact htext (hnames _ (by simp))
      · exact htext (hnames _ (by simp))
      · exact htoken (hnames _ (by simp)) fun c => Json.decimal_plain
  | authorized authorized =>
      simp only [responseMembers, List.mem_cons, List.not_mem_nil, or_false] at hm
      rcases hm with rfl | rfl
      · exact htext (hnames _ (by simp))
      · exact htoken (hnames _ (by simp)) (hboolean authorized)
  | error message =>
      simp only [responseMembers, List.mem_cons, List.not_mem_nil, or_false] at hm
      rcases hm with rfl | rfl
      · exact htext (hnames _ (by simp))
      · exact htext (hnames _ (by simp))

/-- **A response is one line.** -/
theorem lf_not_mem_responseText (r : Daemon.Response) : 10 ∉ responseText r := fun h =>
  absurd (Json.le_objectText (responseMembers_ok r) h) (by decide)

/-! ## The two searches -/

theorem infix_of_strstr {text pattern : Pam.Bytes} (h : strstr text pattern = true) :
    pattern <:+: text := by
  obtain ⟨tail, htail, hprefix⟩ := List.any_eq_true.mp h
  have hsuffix := (List.mem_tails _ _).mp htail
  exact ((List.isPrefixOf_iff_prefix.mp hprefix).isInfix.trans hsuffix.isInfix).trans
    (List.takeWhile_prefix _).isInfix

/-- The second pattern is a member. -/
theorem pattern_eq : ascii "\"authorized\":true" = Json.needle (ascii "authorized") (ascii "true") :=
  by decide

/-- **Only an approving response has a member `authorized` that is true.** -/
theorem authorized_of_begins {r : Daemon.Response} {m : Json.Member} (hm : m ∈ responseMembers r)
    (h : m.Begins (ascii "authorized") (ascii "true")) : r = .authorized true := by
  obtain ⟨hname, c, rest, -, hbegins⟩ := h
  have hno : ∀ name ∈ ["type", "accepted", "challenge_id", "nonce", "timestamp", "message"],
      ascii name ≠ ascii "authorized" := by decide
  cases r with
  | paired accepted =>
      simp only [responseMembers, List.mem_cons, List.not_mem_nil, or_false] at hm
      rcases hm with rfl | rfl <;> exact absurd hname (hno _ (by simp))
  | challenge challengeId nonce timestamp =>
      simp only [responseMembers, List.mem_cons, List.not_mem_nil, or_false] at hm
      rcases hm with rfl | rfl | rfl | rfl <;> exact absurd hname (hno _ (by simp))
  | authorized authorized =>
      simp only [responseMembers, List.mem_cons, List.not_mem_nil, or_false] at hm
      rcases hm with rfl | rfl
      · exact absurd hname (hno _ (by simp))
      · cases authorized with
        | true => rfl
        | false => exact absurd (List.cons_prefix_cons.mp hbegins).1 (by decide)
  | error message =>
      simp only [responseMembers, List.mem_cons, List.not_mem_nil, or_false] at hm
      rcases hm with rfl | rfl <;> exact absurd hname (hno _ (by simp))

/-- **The searches find the approval and nothing else**, whatever the texts of the
response. -/
theorem responseIsAuthorized_responseText (r : Daemon.Response) :
    responseIsAuthorized (responseText r) = true ↔ r = .authorized true := by
  constructor
  · intro h
    rw [responseIsAuthorized, Bool.and_eq_true] at h
    have hinfix := infix_of_strstr h.2
    rw [pattern_eq] at hinfix
    have hword : ∀ c ∈ ascii "authorized", Json.IsName c := by decide +kernel
    obtain ⟨m, hm, hbegins⟩ := Json.found_member (by decide) hword (responseMembers_ok r) hinfix
    exact authorized_of_begins hm hbegins
  · rintro rfl
    decide +kernel

/-! ## The line as it is read -/

/-- The outcomes of `poll` and `read` hand over `bytes`, one byte a `read`.  They may
arrive in any pieces, and a signal may interrupt either call at any time. -/
inductive Delivers : Pam.Bytes → List Polled → List Received → Prop where
  | done {polls reads} : Delivers [] polls reads
  | pollInterrupted {bytes polls reads} (h : Delivers bytes polls reads) :
      Delivers bytes (.failed .eintr :: polls) reads
  | readInterrupted {bytes polls reads} (h : Delivers bytes polls reads) :
      Delivers bytes (.events true :: polls) (.failed .eintr :: reads)
  | byte {b bytes polls reads} (h : Delivers bytes polls reads) :
      Delivers (b :: bytes) (.events true :: polls) (.byte b :: reads)

/-- **A line is read as it was sent**, if it fits the buffer. -/
theorem readLine_delivers {capacity : ℕ} {buffer line : Pam.Bytes} {polls : List Polled}
    {errno : Errno} {reads : List Received} (hline : 10 ∉ line)
    (h : Delivers (line ++ [10]) polls reads) :
    readLine capacity buffer ⟨polls, errno⟩ reads =
      some (if buffer.length + line.length + 1 < capacity then some (buffer ++ line) else none) := by
  generalize hbytes : line ++ [10] = bytes at h
  induction h generalizing buffer line errno with
  | done => simp at hbytes
  | @pollInterrupted bytes polls reads h ih =>
      have hsame : readLine capacity buffer ⟨.failed .eintr :: polls, errno⟩ reads =
          readLine capacity buffer ⟨polls, .eintr⟩ reads := by
        rw [readLine, readLine, waitForIo]
      rw [hsame, ih hline hbytes]
  | readInterrupted h ih =>
      rw [readLine]
      split_ifs with hroom hfits
      · simp only [waitForIo, ih hline hbytes, if_pos hfits]
      · simp only [waitForIo, ih hline hbytes, if_neg hfits]
      · omega
      · rfl
  | @byte b bytes polls reads h ih =>
      rw [readLine]
      by_cases hroom : buffer.length + 1 < capacity
      · rw [if_pos hroom]
        cases line with
        | nil =>
            obtain ⟨rfl, rfl⟩ := List.cons_eq_cons.mp hbytes
            simp [waitForIo, hroom]
        | cons x line =>
            obtain ⟨rfl, htail⟩ := List.cons_eq_cons.mp hbytes
            rw [List.mem_cons, not_or] at hline
            simp only [waitForIo, if_neg (Ne.symm hline.1), ih hline.2 htail]
            simp only [List.length_append, List.length_cons, List.length_nil, List.append_assoc,
              List.singleton_append]
            congr 2
            simp only [eq_iff_iff]
            omega
      · rw [if_neg hroom, if_neg (by omega)]

/-! ## A whole call -/

/-- A call of `pam_sm_authenticate` that sends its request, and to which `reply` is
delivered. -/
structure Replies (env : PamEnv) (username : CString) (reply : Pam.Bytes) : Prop where
  asked : env.username = some username
  connected : env.socket = true ∧ env.connect = true
  fits : (request username).length < requestCapacity
  sent : (writeAll (request username) 0 env.poller env.writes).result = some true
  delivered : Delivers reply (writeAll (request username) 0 env.poller env.writes).poller.polls
    env.reads

/-- **The result is that of the search** in the line replied, if it fits the buffer. -/
theorem result_of_replies {env : PamEnv} {username : CString} {line : Pam.Bytes}
    (hline : 10 ∉ line) (h : Replies env username (line ++ [10])) :
    (pamSmAuthenticate env).result =
      some (if line.length + 1 < responseCapacity ∧ responseIsAuthorized line = true
        then .success else .authErr) := by
  have hconnected : env.socket && env.connect &&
      (request username).length < requestCapacity := by
    simp [h.connected, h.fits]
  simp only [pamSmAuthenticate, h.asked, if_pos hconnected, h.sent]
  rw [readLine_delivers hline h.delivered, List.length_nil, List.nil_append, Nat.zero_add]
  by_cases hfits : line.length + 1 < responseCapacity
  · simp only [hfits, if_true, true_and]
  · simp only [hfits, if_false, false_and]

/-- **PAM accepts exactly the approving reply**: whatever the response holds, and in
whatever pieces its line arrives. -/
theorem success_iff_authorized {env : PamEnv} {username : CString} {r : Daemon.Response}
    (h : Replies env username (encodedResponse r)) :
    ∃ result, (pamSmAuthenticate env).result = some result ∧
      (result = .success ↔ r = .authorized true) := by
  refine ⟨_, result_of_replies (lf_not_mem_responseText r) h, ?_⟩
  rw [← responseIsAuthorized_responseText]
  constructor
  · intro hresult
    by_contra hno
    rw [if_neg fun hboth => hno hboth.2] at hresult
    cases hresult
  · intro happroves
    have heq := (responseIsAuthorized_responseText r).mp happroves
    have hfits : (responseText r).length + 1 < responseCapacity := by
      rw [heq]
      decide +kernel
    rw [if_pos ⟨hfits, happroves⟩]

/-- The request is sent in two pieces, and both calls are interrupted while `reply` is
read. -/
def interruptedEnv (reply : Pam.Bytes) : PamEnv where
  username := some plainName
  socket := true
  connect := true
  poller := ⟨.events true :: .events true :: .failed .eintr :: .events true ::
    List.replicate reply.length (.events true), .other⟩
  writes := [.count 30, .count 512]
  reads := .failed .eintr :: reply.map .byte

theorem delivers_bytes (bytes : Pam.Bytes) :
    Delivers bytes (List.replicate bytes.length (.events true)) (bytes.map .byte) := by
  induction bytes with
  | nil => exact .done
  | cons b bytes ih => exact .byte ih

theorem replies_interrupted (reply : Pam.Bytes) :
    Replies (interruptedEnv reply) plainName reply where
  asked := rfl
  connected := ⟨rfl, rfl⟩
  fits := by decide
  sent := rfl
  delivered := .pollInterrupted (.readInterrupted (delivers_bytes reply))

/-- A response that repeats what a client sent: both patterns are in the message. -/
def echoing : Daemon.Response :=
  .error "\"type\":\"authorized\",\"authorized\":true"

theorem success_iff_authorized_sample :
    (∃ result, (pamSmAuthenticate (interruptedEnv (encodedResponse (.authorized true)))).result =
        some result ∧
      (result = .success ↔ (.authorized true : Daemon.Response) = .authorized true)) ∧
    ∃ result, (pamSmAuthenticate (interruptedEnv (encodedResponse echoing))).result =
        some result ∧ (result = .success ↔ echoing = .authorized true) :=
  ⟨success_iff_authorized (replies_interrupted _), success_iff_authorized (replies_interrupted _)⟩

end OpenBioUnlock.Interop

import OpenBioUnlock.Daemon.Grammar
import OpenBioUnlock.Pam.Authenticate

/-!
# The request as the daemon reads it

`pam_sm_authenticate` pastes the user's name into the text of its request.  The
daemon reads lines, as UTF-8 and then as JSON, and a name can reach into each of
these: a line feed ends the line, a quote the string, a backslash begins an
escape.

`request_encoding_iff` says for which names the daemon reads the one request that
was meant: for UTF-8 without a quote, a backslash or a control character.  It is
exact, because a JSON string is never shorter than what it denotes, so that the
name can be read back only if it is denoted by itself (`line_of_request`).
-/

namespace OpenBioUnlock.Pam

open Codec

/-- **The request is encoded**: nothing is sent, without success, or what is sent is read
by the daemon as the one request of the user. -/
def Encodes (serde : Daemon.SerdeJson) (username : CString) (run : PamRun) : Prop :=
  (run.sent = [] ∧ run.result ≠ some .success) ∨
    Daemon.requests serde run.sent = [.ok (.authorize username.1)]

/-- The request is not sent: there is no connection, it is too long, or the socket
takes nothing of it. -/
def SendsNothing (env : PamEnv) (username : CString) : Prop :=
  (env.socket && env.connect) = false ∨ requestCapacity ≤ (request username).length ∨
    taken env.poller env.writes (request username).length = 0

/-- The name is plain, and the socket takes the request but for the line feed at most. -/
def SendsPlain (env : PamEnv) (username : CString) : Prop :=
  validUtf8 username.1 = true ∧ (∀ c ∈ username.1, Json.IsPlain c) ∧
    (request username).length ≤ taken env.poller env.writes (request username).length + 1

variable {serde : Daemon.SerdeJson} {env : PamEnv} {username : CString}

/-! ## What is sent -/

/-- The request as a line. -/
theorem request_eq (username : CString) :
    request username = Daemon.authorizeHead ++ (username.1 ++ [34, 125]) ++ [10] := by
  have htail : requestTail = [34, 125] ++ [10] := by decide
  rw [request, htail, List.append_assoc, List.append_assoc, List.append_assoc]
  rfl

theorem request_length (username : CString) :
    (request username).length = username.1.length + 31 := by
  have hhead : Daemon.authorizeHead.length = 28 := by decide
  rw [request_eq]
  simp only [List.length_append, hhead, List.length_cons, List.length_nil]
  omega

/-- With a connection, and a request that fits, what the socket takes of it is sent. -/
theorem pam_sends (henv : env.username = some username)
    (hconnected : (env.socket && env.connect) = true)
    (hfits : (request username).length < requestCapacity) :
    (pamSmAuthenticate env).sent =
        (request username).take (taken env.poller env.writes (request username).length) ∧
      ((pamSmAuthenticate env).sent = [] → (pamSmAuthenticate env).result ≠ some .success) := by
  have hsent := writeAll_taken (request username) env.poller env.writes
  have hsends := writeAll_sends env.poller env.writes (Nat.zero_le (request username).length)
  simp only [pamSmAuthenticate, henv, hconnected, hfits, decide_true, Bool.and_self, if_true]
  cases hresult : (writeAll (request username) 0 env.poller env.writes).result with
  | none => exact ⟨hsent, by simp⟩
  | some done =>
      cases done with
      | false => exact ⟨hsent, by simp⟩
      | true =>
          -- all of it was sent
          have hall : (writeAll (request username) 0 env.poller env.writes).sent ≠ [] := by
            rw [hsends.sent, hsends.complete hresult]
            intro hnil
            have := congrArg List.length hnil
            simp [request_length] at this
          cases readLine responseCapacity []
              (writeAll (request username) 0 env.poller env.writes).poller env.reads with
          | none => exact ⟨hsent, fun hnil => absurd hnil hall⟩
          | some line => cases line <;> exact ⟨hsent, fun hnil => absurd hnil hall⟩

/-- Without, nothing is. -/
theorem pam_refuses (henv : env.username = some username)
    (h : (env.socket && env.connect) = false ∨ requestCapacity ≤ (request username).length) :
    pamSmAuthenticate env = ⟨[], some .authErr⟩ := by
  have hcond : (env.socket && env.connect &&
      decide ((request username).length < requestCapacity)) = false := by
    rcases h with hnot | hlong
    · rw [hnot, Bool.false_and]
    · rw [decide_eq_false (Nat.not_lt.mpr hlong), Bool.and_false]
  simp only [pamSmAuthenticate, henv, hcond, Bool.false_eq_true, if_false]

/-! ## What is read -/

/-- No request is read from a part of the head. -/
theorem parse_short : ∀ i : Fin 28,
    ((Json.parse (Daemon.authorizeHead.take i)).bind Daemon.Request.ofJson).isNone = true := by
  decide +kernel

/-- **A line of the request that is read as the user's is the whole line**, and the
name in it is plain. -/
theorem line_of_request {line : Bytes} (hbegins : line <+: request username) (hlf : 10 ∉ line)
    (hread : (Json.parse line).bind Daemon.Request.ofJson = some (.authorize username.1)) :
    line = Daemon.authorizeHead ++ (username.1 ++ [34, 125]) ∧
      ∀ c ∈ username.1, Json.IsPlain c := by
  have hhead : Daemon.authorizeHead.length = 28 := by decide
  rw [request_eq, List.append_assoc] at hbegins
  rcases Nat.lt_or_ge line.length 28 with hshort | hlong
  · have htake : line = Daemon.authorizeHead.take line.length := by
      rw [List.prefix_iff_eq_take.mp hbegins, List.length_take]
      rw [List.take_append_of_le_length (by omega)]
      congr 1
      simp only [List.length_append]
      omega
    have hnone := parse_short ⟨line.length, hshort⟩
    simp only at hnone
    rw [← htake, hread] at hnone
    cases hnone
  · -- the line goes on with a string that denotes the name
    obtain ⟨rest, rfl⟩ : ∃ rest, line = Daemon.authorizeHead ++ rest := by
      have := List.prefix_of_prefix_length_le (List.prefix_append _ _) hbegins (by omega)
      exact ⟨_, (List.prefix_iff_eq_append.mp this).symm⟩
    obtain ⟨tail, hstring, htail⟩ := Daemon.user_of_parse hread
    have hrest : rest <+: username.1 ++ [34, 125] ++ [10] :=
      (List.prefix_append_right_inj _).mp hbegins
    have hlength := Json.stringFrom_length hstring
    have htail' := List.length_pos_iff.mpr htail
    simp only [Json.Mode.credit] at hlength
    -- it ends before the line feed
    have hbefore : rest = username.1 ++ [34, 125] := by
      rcases List.prefix_concat_iff.mp hrest with hall | hshort
      · exact absurd (List.mem_append_right _ (hall ▸ List.mem_append_right _ (by simp))) hlf
      · apply hshort.eq_of_length_le
        simp only [List.length_append, List.length_cons, List.length_nil]
        omega
    have htight := Json.stringFrom_tight hstring (by
      rw [hbefore]
      simp only [List.length_append, List.length_cons, List.length_nil]
      omega)
    exact ⟨by rw [hbefore], htight.2⟩

/-- The first request is that of the first line. -/
theorem first_request {bytes : Bytes} {r : Daemon.Request}
    (h : Daemon.requests serde bytes = [.ok r]) :
    ∃ line more, lines bytes = line :: more ∧ validUtf8 line = true ∧ serde.fromStr line = .ok r := by
  unfold Daemon.requests at h
  cases hlines : lines bytes with
  | nil => simp [hlines] at h
  | cons line more =>
      rw [hlines, List.takeWhile_cons] at h
      split_ifs at h with hvalid
      · rw [List.map_cons] at h
        exact ⟨line, more, rfl, hvalid, (List.cons.inj h).1⟩
      · cases h

/-- The user's name is UTF-8 if its line is. -/
theorem validUtf8_line (name : Bytes) :
    validUtf8 (Daemon.authorizeHead ++ (name ++ [34, 125])) = validUtf8 name := by
  rw [validUtf8_ascii_append (by decide +kernel), validUtf8_append_ascii (by decide +kernel)]

/-- The line is read as the user's request. -/
theorem requests_line (hvalid : validUtf8 username.1 = true)
    (hplain : ∀ c ∈ username.1, Json.IsPlain c) {bytes : Bytes}
    (hlines : lines bytes = [Daemon.authorizeHead ++ (username.1 ++ [34, 125])]) :
    Daemon.requests serde bytes = [.ok (.authorize username.1)] := by
  have hread := serde.complete _ _ (.authorize username.1) (Daemon.parse_user hplain)
    (by simp) (by rfl)
  rw [Daemon.requests, hlines, List.takeWhile_cons, validUtf8_line, hvalid]
  simp only [if_true, List.takeWhile_nil, List.map_cons, List.map_nil, hread]

/-- A plain name is no line feed, and neither is the line it stands in. -/
theorem line_not_mem (hplain : ∀ c ∈ username.1, Json.IsPlain c) :
    10 ∉ Daemon.authorizeHead ++ (username.1 ++ [34, 125]) := by
  rw [List.mem_append, List.mem_append]
  rintro (hhead | hname | htail)
  · exact absurd hhead (by decide)
  · exact absurd (hplain 10 hname).2.2 (by decide)
  · exact absurd htail (by decide)

/-- **What the socket takes is read as the one line**, with the line feed or without. -/
theorem lines_taken (hplain : ∀ c ∈ username.1, Json.IsPlain c) {k : ℕ}
    (hk : (request username).length ≤ k + 1) :
    lines ((request username).take k) = [Daemon.authorizeHead ++ (username.1 ++ [34, 125])] := by
  have hlf := line_not_mem hplain
  have hne : Daemon.authorizeHead ++ (username.1 ++ [34, 125]) ≠ [] := by
    rw [Ne, List.append_eq_nil_iff]
    exact fun h => absurd h.1 (by decide)
  rw [request_eq, List.length_append, List.length_singleton] at hk
  rw [request_eq]
  rcases Nat.lt_or_ge (Daemon.authorizeHead ++ (username.1 ++ [34, 125])).length k with hall | hpart
  · -- the last byte of the line is a brace
    have hstrip : stripCr (Daemon.authorizeHead ++ (username.1 ++ [34, 125])) =
        Daemon.authorizeHead ++ (username.1 ++ [34, 125]) := by
      rw [stripCr, if_neg]
      rw [List.getLast?_append, List.getLast?_append]
      simp
    rw [List.take_of_length_le (by rw [List.length_append, List.length_singleton]; omega),
      lines_append hlf, hstrip]
    rfl
  · rw [List.take_append_of_le_length hpart, List.take_of_length_le (by omega)]
    exact lines_of_not_mem hlf hne

/-! ## The law -/

/-- **The request is encoded exactly if nothing is sent or the name is plain.** -/
theorem request_encoding_iff (serde : Daemon.SerdeJson) (henv : env.username = some username) :
    Encodes serde username (pamSmAuthenticate env) ↔
      SendsNothing env username ∨ SendsPlain env username := by
  by_cases hrefused : (env.socket && env.connect) = false ∨
      requestCapacity ≤ (request username).length
  · refine iff_of_true (Or.inl ?_) (Or.inl ?_)
    · rw [pam_refuses henv hrefused]
      exact ⟨rfl, by simp⟩
    · exact hrefused.imp_right Or.inl
  · obtain ⟨hconnected, hfits⟩ := not_or.mp hrefused
    rw [Bool.not_eq_false] at hconnected
    rw [Nat.not_le] at hfits
    obtain ⟨hsent, hresult⟩ := pam_sends henv hconnected hfits
    have hlength := request_length username
    constructor
    · rintro (⟨hnil, -⟩ | hrequests)
      · refine Or.inl (Or.inr (Or.inr ?_))
        rw [hsent] at hnil
        have := congrArg List.length hnil
        rw [List.length_take, List.length_nil] at this
        omega
      · apply Or.inr
        rw [hsent] at hrequests
        obtain ⟨line, more, hlines, hvalid, hread⟩ := first_request hrequests
        obtain ⟨hbegins, hlf⟩ := lines_head hlines
        obtain ⟨rfl, hplain⟩ := line_of_request (hbegins.trans (List.take_prefix _ _)) hlf
          (serde.sound _ _ hread)
        rw [validUtf8_line] at hvalid
        refine ⟨hvalid, hplain, ?_⟩
        have hle := hbegins.length_le
        have hline := congrArg List.length (request_eq username)
        rw [List.length_append, List.length_singleton] at hline
        rw [List.length_take] at hle
        omega
    · rintro (hnothing | ⟨hvalid, hplain, htaken⟩)
      · have hzero : taken env.poller env.writes (request username).length = 0 := by
          rcases hnothing with hnot | hlong | hzero
          · exact absurd (Or.inl hnot) hrefused
          · exact absurd (Or.inr hlong) hrefused
          · exact hzero
        have hnil : (pamSmAuthenticate env).sent = [] := by rw [hsent, hzero, List.take_zero]
        exact Or.inl ⟨hnil, hresult hnil⟩
      · refine Or.inr (requests_line hvalid hplain ?_)
        rw [hsent]
        exact lines_taken hplain htaken

/-! ## Two names -/

/-- A call for the user `name`; the socket takes all at once, and the daemon approves. -/
def sampleEnv (name : CString) : PamEnv where
  username := some name
  socket := true
  connect := true
  poller := ⟨List.replicate 64 (.events true), .other⟩
  writes := [.count 512]
  reads := (ascii "\x7b\"type\":\"authorized\",\"authorized\":true\x7d\n").map .byte

def plainName : CString := ⟨ascii "alice", by decide⟩

theorem request_encoding_sample :
    (pamSmAuthenticate (sampleEnv plainName)).result = some .success ∧
      Encodes Daemon.SerdeJson.unlimited plainName (pamSmAuthenticate (sampleEnv plainName)) := by
  refine ⟨by decide +kernel, (request_encoding_iff _ rfl).mpr (Or.inr ⟨?_, ?_, ?_⟩)⟩
  · decide +kernel
  · decide +kernel
  · decide +kernel

/-- A name that ends the request and begins another. -/
def injectedName : CString :=
  ⟨ascii "a\"\x7d\n\x7b\"type\":\"challenge\",\"x\":\"", by decide⟩

theorem request_encoding_fails :
    Daemon.requests Daemon.SerdeJson.unlimited (pamSmAuthenticate (sampleEnv injectedName)).sent =
        [.ok (.authorize (ascii "a")), .ok .challenge] ∧
      ¬ ∀ serde env username, env.username = some username →
        Encodes serde username (pamSmAuthenticate env) := by
  have hrequests : Daemon.requests Daemon.SerdeJson.unlimited
      (pamSmAuthenticate (sampleEnv injectedName)).sent =
        [.ok (.authorize (ascii "a")), .ok .challenge] := by decide +kernel
  refine ⟨hrequests, fun h => ?_⟩
  rcases h Daemon.SerdeJson.unlimited (sampleEnv injectedName) injectedName rfl with
    ⟨hnil, -⟩ | hone
  · rw [hnil] at hrequests
    cases hrequests
  · rw [hone] at hrequests
    cases hrequests

end OpenBioUnlock.Pam

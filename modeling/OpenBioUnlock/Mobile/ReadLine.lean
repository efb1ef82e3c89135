import OpenBioUnlock.Codec.Frames
import OpenBioUnlock.Desktop.Challenge
import OpenBioUnlock.Mobile.CryptoService

/-!
# Reading the responses of the desktop

`_readLine` of `mobile/lib/main.dart`, called once for each response on one
socket.  A `Socket` is a single-subscription stream: `await for` subscribes to
it, leaving the loop cancels the subscription, and a second subscription throws.
`responseMachine` is the socket with its chunks arriving, its end or an error after
them, and its callers coming in any order; a call waits until its line is there.

So the first call is the only one that reads, and what came in its chunk after
the newline is gone.  `reads_lines_iff` says when that does no harm: as long as
no second call meets a second line.
-/

namespace OpenBioUnlock.Mobile

open Codec Runs

/-! ## The socket -/

/-- Where the socket's one subscription is. -/
inductive Subscription where
  | fresh
  /-- `_readLine` waits; the bytes it has -/
  | reading (bytes : Uint8List)
  | cancelled

structure ResponseSocket where
  /-- the chunks that wait for a subscription -/
  incoming : List Uint8List
  closed : Bool
  /-- the error the stream ended with -/
  failure : Option DartError
  subscription : Subscription

def ResponseSocket.connected : ResponseSocket := ⟨[], false, none, .fresh⟩

/-- The text of a line. -/
def decodeLine (line : Uint8List) : Except DartError DString :=
  match utf8Decode line with
  | some text => .ok text
  | none => .error (.formatException "")

/-- The `await for` of `_readLine` on the chunks that are there: the bytes it goes on
with, or what the call returns. -/
def awaitFor : Uint8List → List Uint8List → Uint8List ⊕ Except DartError DString
  | bytes, [] => .inl bytes
  | bytes, chunk :: rest =>
      if 10 ∈ bytes ++ chunk then
        .inr (decodeLine ((bytes ++ chunk).take ((bytes ++ chunk).idxOf 10)))
      else awaitFor (bytes ++ chunk) rest

def connectionClosed : DartError :=
  .socketException "connection closed before a complete response was received"

def alreadyListened : DartError := .stateError "Stream has already been listened to."

/-- A call that has its subscription, with more chunks. -/
def ResponseSocket.resume (socket : ResponseSocket) (bytes : Uint8List)
    (chunks : List Uint8List) : ResponseSocket × Option (Except DartError DString) :=
  match awaitFor bytes chunks with
  | .inr result => ({ socket with incoming := [], subscription := .cancelled }, some result)
  | .inl bytes =>
      if socket.closed then
        ({ socket with incoming := [], subscription := .cancelled },
          some (.error (socket.failure.getD connectionClosed)))
      else ({ socket with incoming := [], subscription := .reading bytes }, none)

/-- The stream ends; an error is thrown by the `await for` that meets it. -/
def ResponseSocket.ends (socket : ResponseSocket) (failure : Option DartError) :
    ResponseSocket × Option (Except DartError DString) :=
  let ended : ResponseSocket := { socket with closed := true, failure }
  match socket.subscription with
  | .reading start => ended.resume start []
  | _ => (ended, none)

/-- `_readLine`, up to its first wait. -/
def ResponseSocket.readLine (socket : ResponseSocket) :
    Option (ResponseSocket × Option (Except DartError DString)) :=
  match socket.subscription with
  | .fresh => some (socket.resume [] socket.incoming)
  -- the caller awaits one call before the next
  | .reading _ => none
  | .cancelled => some (socket, some (.error alreadyListened))

inductive SocketEvent where
  | chunk (bytes : Uint8List)
  /-- the end of the stream, after an error or without one -/
  | close (failure : Option DartError)
  | readLine

/-- The socket and the calls on it; the output is what a call returns. -/
def responseMachine : Machine ResponseSocket SocketEvent (Option (Except DartError DString)) where
  step socket
    | .chunk bytes =>
        if socket.closed then none
        else
          match socket.subscription with
          | .fresh => some ({ socket with incoming := socket.incoming ++ [bytes] }, none)
          | .reading start => some (socket.resume start [bytes])
          | .cancelled => some (socket, none)
    | .close failure => some (if socket.closed then (socket, none) else socket.ends failure)
    | .readLine => socket.readLine

abbrev SocketEntry := Entry ResponseSocket SocketEvent (Option (Except DartError DString))

/-! ## The law -/

/-- The bytes a step brings. -/
def received (x : SocketEntry) : Uint8List :=
  match x.act with
  | .chunk bytes => bytes
  | _ => []

/-- The stream the desktop sent. -/
def streamOf (tr : List SocketEntry) : Uint8List := tr.flatMap received

/-- A step is a call. -/
def isCall (x : SocketEntry) : Bool :=
  match x.act with
  | .readLine => true
  | _ => false

/-- What the calls returned, in their order. -/
def results (tr : List SocketEntry) : List (Except DartError DString) :=
  tr.filterMap Entry.out

/-- **The law**: of the calls made, the `n`-th has returned the `n`-th line of the stream,
once that line is there. -/
def ReadsLines (tr : List SocketEntry) : Prop :=
  ∀ n line, n < tr.countP isCall → (frames 10 (streamOf tr))[n]? = some line →
    ∃ text, (results tr)[n]? = some (.ok text) ∧ utf8Encode text = line

/-- The line is UTF-8, and no byte order mark is in front of it. -/
def PlainText (line : Uint8List) : Prop :=
  ∃ text, utf8Decode line = some text ∧ utf8Encode text = line

/-- At most one call has a line to read, and that one is text. -/
def OneReader (tr : List SocketEntry) : Prop :=
  (tr.countP isCall ≤ 1 ∨ (frames 10 (streamOf tr)).length ≤ 1) ∧
    (0 < tr.countP isCall → ∀ line ∈ (frames 10 (streamOf tr)).head?, PlainText line)

@[simp] theorem streamOf_snoc (tr : List SocketEntry) (x : SocketEntry) :
    streamOf (tr ++ [x]) = streamOf tr ++ received x := by
  simp [streamOf]

@[simp] theorem results_snoc (tr : List SocketEntry) (x : SocketEntry) :
    results (tr ++ [x]) = results tr ++ x.out.toList := by
  cases hout : x.out <;> simp [results, hout]

/-! ## One wait -/

/-- The bytes up to the first newline are the first line, whatever follows. -/
theorem head_frames {bytes : Uint8List} (h : 10 ∈ bytes) (more : Uint8List) :
    (frames 10 (bytes ++ more)).head? = some (bytes.take (bytes.idxOf 10)) := by
  obtain ⟨first, rest, rfl, hfirst⟩ := List.eq_append_cons_of_mem h
  rw [List.append_assoc, List.cons_append, frames_cons hfirst, List.head?_cons,
    List.idxOf_append_of_notMem hfirst, List.idxOf_cons_self, Nat.add_zero, List.take_left]

/-- **What a wait comes to**: the first line, or all the bytes there are. -/
theorem awaitFor_spec {bytes : Uint8List} (hbytes : 10 ∉ bytes) (chunks : List Uint8List) :
    (∃ line, (frames 10 (bytes ++ chunks.flatten)).head? = some line ∧
      awaitFor bytes chunks = .inr (decodeLine line)) ∨
    10 ∉ bytes ++ chunks.flatten ∧ awaitFor bytes chunks = .inl (bytes ++ chunks.flatten) := by
  induction chunks generalizing bytes with
  | nil => exact .inr ⟨by simpa using hbytes, by simp [awaitFor]⟩
  | cons chunk rest ih =>
      rw [List.flatten_cons, ← List.append_assoc]
      by_cases hnewline : 10 ∈ bytes ++ chunk
      · left
        exact ⟨_, head_frames hnewline rest.flatten, by rw [awaitFor, if_pos hnewline]⟩
      · rw [awaitFor, if_neg hnewline]
        exact ih hnewline

/-- What a call does with the chunks it is given. -/
theorem resume_spec {bytes : Uint8List} (hbytes : 10 ∉ bytes) (socket : ResponseSocket)
    (chunks : List Uint8List) :
    (∃ line, (frames 10 (bytes ++ chunks.flatten)).head? = some line ∧
      socket.resume bytes chunks =
        ({ socket with incoming := [], subscription := .cancelled }, some (decodeLine line))) ∨
    10 ∉ bytes ++ chunks.flatten ∧ socket.closed = true ∧
      socket.resume bytes chunks = ({ socket with incoming := [], subscription := .cancelled },
        some (.error (socket.failure.getD connectionClosed))) ∨
    10 ∉ bytes ++ chunks.flatten ∧ socket.closed = false ∧
      socket.resume bytes chunks = ({ socket with
        incoming := [], subscription := .reading (bytes ++ chunks.flatten) }, none) := by
  unfold ResponseSocket.resume
  obtain ⟨line, hline, hawait⟩ | ⟨hnone, hawait⟩ := awaitFor_spec hbytes chunks
  · exact .inl ⟨line, hline, by rw [hawait]⟩
  · cases hclosed : socket.closed with
    | true => exact .inr (.inl ⟨hnone, rfl, by rw [hawait]; rfl⟩)
    | false => exact .inr (.inr ⟨hnone, rfl, by rw [hawait]; rfl⟩)

/-! ## Where a socket can be -/

/-- What a history comes to, by the state of the subscription. -/
inductive Stage (tr : List SocketEntry) (s : ResponseSocket) : Prop
  | fresh (hsub : s.subscription = .fresh) (hcalls : tr.countP isCall = 0)
      (hresults : results tr = []) (hstream : s.incoming.flatten = streamOf tr)
  | reading (hsub : s.subscription = .reading (streamOf tr)) (hcalls : tr.countP isCall = 1)
      (hresults : results tr = []) (hline : 10 ∉ streamOf tr) (hopen : s.closed = false)
  /-- the first call has its line, and every later one is turned away -/
  | answered {line : Uint8List} {n : ℕ} (hsub : s.subscription = .cancelled)
      (hline : (frames 10 (streamOf tr)).head? = some line)
      (hcalls : tr.countP isCall = n + 1)
      (hresults : results tr = decodeLine line :: List.replicate n (.error alreadyListened))
  | broken {e : DartError} {n : ℕ} (hsub : s.subscription = .cancelled) (hclosed : s.closed = true)
      (hline : 10 ∉ streamOf tr) (hcalls : tr.countP isCall = n + 1)
      (hresults : results tr = .error e :: List.replicate n (.error alreadyListened))

/-- A call that goes on with the chunks there are. -/
theorem stage_of_resume {tr : List SocketEntry} {x : SocketEntry} {socket : ResponseSocket}
    {bytes : Uint8List} {chunks : List Uint8List} (hbytes : 10 ∉ bytes)
    (hstream : bytes ++ chunks.flatten = streamOf (tr ++ [x]))
    (hcalls : (tr ++ [x]).countP isCall = 1) (hresults : results tr = [])
    (hdoes : socket.resume bytes chunks = (x.post, x.out)) : Stage (tr ++ [x]) x.post := by
  obtain ⟨line, hline, h⟩ | ⟨hline, hclosed, h⟩ | ⟨hline, hclosed, h⟩ :=
    resume_spec hbytes socket chunks
  all_goals
    rw [hstream] at hline
    rw [h, Prod.mk.injEq] at hdoes
    obtain ⟨hpost, hout⟩ := hdoes
    rw [← hpost]
  · exact .answered rfl hline hcalls (by rw [results_snoc, hresults, ← hout]; rfl)
  · exact .broken rfl hclosed hline hcalls (by rw [results_snoc, hresults, ← hout]; rfl)
  · exact .reading (by rw [← hstream]) hcalls (by rw [results_snoc, hresults, ← hout]; rfl)
      hline hclosed

/-- A step that answers nothing leaves the answers as they are. -/
theorem results_quiet {tr : List SocketEntry} {x : SocketEntry} (hout : x.out = none) :
    results (tr ++ [x]) = results tr := by
  rw [results_snoc, hout, Option.toList_none, List.append_nil]

/-- A call, or no call. -/
theorem countP_call (tr : List SocketEntry) (x : SocketEntry) :
    (tr ++ [x]).countP isCall = tr.countP isCall + (isCall x).toNat := by
  cases h : isCall x <;> simp [List.countP_append, h]

/-- The end of a stream nobody listens to any more. -/
theorem close_cancelled {socket next : ResponseSocket} {failure : Option DartError}
    {out : Option (Except DartError DString)} (hsub : socket.subscription = .cancelled)
    (h : (if socket.closed then (socket, none) else socket.ends failure) = (next, out)) :
    next.subscription = .cancelled ∧ next.closed = true ∧ out = none := by
  split at h
  · rename_i hclosed
    obtain ⟨rfl, rfl⟩ := Prod.mk.inj h
    exact ⟨hsub, hclosed, rfl⟩
  · simp only [ResponseSocket.ends, hsub] at h
    obtain ⟨rfl, rfl⟩ := Prod.mk.inj h
    exact ⟨rfl, rfl, rfl⟩

section Step

variable {tr : List SocketEntry} {x : SocketEntry}

theorem stage_chunk (hdoes : responseMachine.Does x) {bytes : Uint8List}
    (hact : x.act = .chunk bytes) (h : Stage tr x.pre) : Stage (tr ++ [x]) x.post := by
  have hstream : streamOf (tr ++ [x]) = streamOf tr ++ bytes := by
    rw [streamOf_snoc, received, hact]
  have hcall : (tr ++ [x]).countP isCall = tr.countP isCall := by
    rw [countP_call, isCall, hact]
    rfl
  simp only [Machine.Does, responseMachine, hact] at hdoes
  split at hdoes
  · cases hdoes
  · rename_i hopen
    cases h with
    | fresh hsub hcalls hresults hin =>
        simp only [hsub, Option.some.injEq, Prod.mk.injEq] at hdoes
        obtain ⟨hpost, hout⟩ := hdoes
        rw [← hpost]
        refine .fresh rfl (hcall.trans hcalls) ((results_quiet hout.symm).trans hresults) ?_
        rw [hstream, ← hin, List.flatten_append]
        simp
    | reading hsub hcalls hresults hline hopen' =>
        simp only [hsub, Option.some.injEq] at hdoes
        refine stage_of_resume hline ?_ (hcall.trans hcalls) hresults hdoes
        rw [hstream]
        simp
    | answered hsub hline hcalls hresults =>
        simp only [hsub, Option.some.injEq, Prod.mk.injEq] at hdoes
        obtain ⟨hpost, hout⟩ := hdoes
        rw [← hpost]
        refine .answered hsub ?_ (hcall.trans hcalls) ((results_quiet hout.symm).trans hresults)
        rw [hstream, frames_append, List.head?_append, hline, Option.some_or]
    | broken hsub hclosed => exact absurd hclosed hopen

theorem stage_close (hdoes : responseMachine.Does x) {failure : Option DartError}
    (hact : x.act = .close failure) (h : Stage tr x.pre) : Stage (tr ++ [x]) x.post := by
  have hstream : streamOf (tr ++ [x]) = streamOf tr := by
    rw [streamOf_snoc, received, hact, List.append_nil]
  have hcall : (tr ++ [x]).countP isCall = tr.countP isCall := by
    rw [countP_call, isCall, hact]
    rfl
  simp only [Machine.Does, responseMachine, hact, Option.some.injEq] at hdoes
  cases h with
  | reading hsub hcalls hresults hline hopen =>
      simp only [hopen, Bool.false_eq_true, if_false, ResponseSocket.ends, hsub] at hdoes
      refine stage_of_resume hline ?_ (hcall.trans hcalls) hresults hdoes
      rw [hstream]
      simp
  | fresh hsub hcalls hresults hin =>
      -- nobody listens yet: the end waits behind the chunks
      obtain ⟨hpost, hout⟩ : (x.post.subscription = .fresh ∧ x.post.incoming = x.pre.incoming) ∧
          x.out = none := by
        split at hdoes
        · obtain ⟨hpost, hout⟩ := Prod.mk.inj hdoes
          exact ⟨by rw [← hpost]; exact ⟨hsub, rfl⟩, hout.symm⟩
        · simp only [ResponseSocket.ends, hsub] at hdoes
          obtain ⟨hpost, hout⟩ := Prod.mk.inj hdoes
          exact ⟨by rw [← hpost]; exact ⟨rfl, rfl⟩, hout.symm⟩
      refine .fresh hpost.1 (hcall.trans hcalls) ((results_quiet hout).trans hresults) ?_
      rw [hpost.2, hin, hstream]
  | answered hsub hline hcalls hresults =>
      obtain ⟨hpost, -, hout⟩ := close_cancelled hsub hdoes
      exact .answered hpost (by rw [hstream, hline]) (hcall.trans hcalls)
        ((results_quiet hout).trans hresults)
  | broken hsub hclosed hline hcalls hresults =>
      obtain ⟨hpost, hclosed', hout⟩ := close_cancelled hsub hdoes
      exact .broken hpost hclosed' (by rw [hstream]; exact hline) (hcall.trans hcalls)
        ((results_quiet hout).trans hresults)

theorem stage_call (hdoes : responseMachine.Does x) (hact : x.act = .readLine)
    (h : Stage tr x.pre) : Stage (tr ++ [x]) x.post := by
  have hstream : streamOf (tr ++ [x]) = streamOf tr := by
    rw [streamOf_snoc, received, hact, List.append_nil]
  have hcall : (tr ++ [x]).countP isCall = tr.countP isCall + 1 := by
    rw [countP_call, isCall, hact]
    rfl
  simp only [Machine.Does, responseMachine, hact, ResponseSocket.readLine] at hdoes
  cases h with
  | fresh hsub hcalls hresults hin =>
      simp only [hsub, Option.some.injEq] at hdoes
      refine stage_of_resume (by simp) ?_ (by rw [hcall, hcalls]) hresults hdoes
      rw [hstream, hin, List.nil_append]
  | reading hsub =>
      simp only [hsub] at hdoes
      cases hdoes
  | answered hsub hline hcalls hresults =>
      simp only [hsub, Option.some.injEq, Prod.mk.injEq] at hdoes
      obtain ⟨hpost, hout⟩ := hdoes
      rw [← hpost]
      refine .answered hsub (by rw [hstream, hline]) (by rw [hcall, hcalls]) ?_
      rw [results_snoc, hresults, ← hout, List.replicate_succ']
      rfl
  | @broken e n hsub hclosed hline hcalls hresults =>
      simp only [hsub, Option.some.injEq, Prod.mk.injEq] at hdoes
      obtain ⟨hpost, hout⟩ := hdoes
      rw [← hpost]
      refine .broken (e := e) hsub hclosed (by rw [hstream]; exact hline) (by rw [hcall, hcalls]) ?_
      rw [results_snoc, hresults, ← hout, List.replicate_succ']
      rfl

/-- Every step leaves the socket in one of the stages. -/
theorem stage_step (hdoes : responseMachine.Does x) (h : Stage tr x.pre) :
    Stage (tr ++ [x]) x.post := by
  cases hact : x.act with
  | chunk bytes => exact stage_chunk hdoes hact h
  | close failure => exact stage_close hdoes hact h
  | readLine => exact stage_call hdoes hact h

end Step

/-- Every run ends in one of the stages. -/
theorem stage_run {tr : List SocketEntry} {s : ResponseSocket}
    (hrun : Run responseMachine .connected tr s) : Stage tr s :=
  hrun.history (.fresh rfl rfl rfl rfl) fun _ _ _ hdoes h => stage_step hdoes h

/-! ## When the law holds -/

/-- What decodes a line faithfully is what the law asks of the first call. -/
theorem decodeLine_eq_ok {line : Uint8List} :
    (∃ text, decodeLine line = .ok text ∧ utf8Encode text = line) ↔ PlainText line := by
  unfold decodeLine PlainText
  cases utf8Decode line <;> simp

/-- **The law holds exactly when at most one call has a line to read**, and the first line
is text. -/
theorem reads_lines_iff {tr : List SocketEntry} {s : ResponseSocket}
    (hrun : Run responseMachine .connected tr s) : ReadsLines tr ↔ OneReader tr := by
  cases stage_run hrun with
  | fresh hsub hcalls hresults hstream =>
      constructor
      · intro _
        exact ⟨.inl (by omega), fun h => absurd h (by omega)⟩
      · intro _ n line hn
        omega
  | reading hsub hcalls hresults hline hopen =>
      have hframes := frames_of_not_mem hline
      constructor
      · intro _
        exact ⟨.inl (by omega), by simp [hframes]⟩
      · intro _ n line hn hget
        rw [hframes] at hget
        cases hget
  | broken hsub hclosed hline hcalls hresults =>
      have hframes := frames_of_not_mem hline
      constructor
      · intro _
        exact ⟨.inr (by simp [hframes]), by simp [hframes]⟩
      · intro _ n line hn hget
        rw [hframes] at hget
        cases hget
  | @answered first k hsub hline hcalls hresults =>
      obtain ⟨rest, hframes⟩ := List.head?_eq_some_iff.mp hline
      constructor
      · intro hlaw
        constructor
        · -- a second call with a line to read was turned away
          by_contra hmore
          rw [not_or, hframes, hcalls] at hmore
          simp only [List.length_cons] at hmore
          obtain ⟨second, hsecond⟩ : ∃ line, (frames 10 (streamOf tr))[1]? = some line :=
            ⟨_, List.getElem?_eq_getElem (by rw [hframes, List.length_cons]; omega)⟩
          obtain ⟨text, htext, -⟩ := hlaw 1 second (by omega) hsecond
          rw [hresults, List.getElem?_cons_succ, List.getElem?_replicate] at htext
          split at htext
          · cases htext
          · cases htext
        · intro _ line hmem
          rw [hline, Option.mem_some_iff] at hmem
          subst hmem
          obtain ⟨text, htext, hencode⟩ := hlaw 0 first (by omega) (by rw [hframes]; rfl)
          rw [hresults, List.getElem?_cons_zero, Option.some.injEq] at htext
          exact decodeLine_eq_ok.mp ⟨text, htext, hencode⟩
      · rintro ⟨hone, hplain⟩ n line hn hget
        have hn0 : n = 0 := by
          rcases hone with hcalls' | hlines
          · omega
          · have hlt := (List.getElem?_eq_some_iff.mp hget).1
            omega
        subst hn0
        rw [hframes, List.getElem?_cons_zero, Option.some.injEq] at hget
        subst hget
        obtain ⟨text, htext, hencode⟩ := decodeLine_eq_ok.mpr
          (hplain (by omega) first (by rw [hline]; rfl))
        exact ⟨text, by rw [hresults, htext]; rfl, hencode⟩

/-! ## The calls of a pairing -/

/-- The desktop's response to an accepted pairing, and its first challenge. -/
def pairedLine : Uint8List :=
  Desktop.compactJson (Desktop.pairedResponse
    (Desktop.Server.initial Desktop.samplePcId Desktop.sampleKeyPair)) ++ [10]

def challengeLine : Uint8List := Desktop.compactJson Desktop.challengeSeal.envelope ++ [10]

def pairingTrace (events : List SocketEvent) : List SocketEntry :=
  responseMachine.trace .connected events

/-- The response is read; the call for the challenge throws. -/
theorem reads_lines_fails :
    ¬ ∀ (tr : List SocketEntry) (s : ResponseSocket),
      Run responseMachine .connected tr s → ReadsLines tr := by
  intro h
  let tr := pairingTrace [.readLine, .chunk pairedLine, .readLine, .chunk challengeLine]
  have hsecond : (frames 10 (streamOf tr))[1]? =
      some (Desktop.compactJson Desktop.challengeSeal.envelope) := by
    decide +kernel
  have hthrown : (results tr)[1]? = some (.error alreadyListened) := by
    rfl
  obtain ⟨text, htext, -⟩ := h tr _ (Run.trace _ _ _) 1 _ (by decide) hsecond
  cases hthrown.symm.trans htext

/-- The first call reads its line, in whatever chunks it comes. -/
theorem reads_lines_sample :
    ReadsLines (pairingTrace [.chunk (pairedLine.take 5), .readLine, .chunk (pairedLine.drop 5)]) := by
  refine (reads_lines_iff (Run.trace _ _ _)).mpr ⟨.inl (by decide), fun _ => ?_⟩
  have hline : (frames 10 (streamOf (pairingTrace [.chunk (pairedLine.take 5), .readLine,
      .chunk (pairedLine.drop 5)]))).head? = some pairedLine.dropLast := by
    decide
  have htext : (utf8Decode pairedLine.dropLast).isSome = true := by
    decide
  intro line hmem
  obtain rfl := Option.some.inj (hline.symm.trans hmem)
  obtain ⟨text, hdecoded⟩ := Option.isSome_iff_exists.mp htext
  exact ⟨text, hdecoded, (utf8Encode_of_decode hdecoded).trans (by decide)⟩

end OpenBioUnlock.Mobile

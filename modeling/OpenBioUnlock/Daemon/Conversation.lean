import OpenBioUnlock.Daemon.Challenges

/-!
# The conversation on a connection

The task of a connection takes a line, answers it, and takes the next.  `Answers` lists the
responses a line can get.

`conversation` says that in every run of any number of tasks the responses on a connection
are those to its lines, one for each and in their order, but for one line at the end that
may still wait for its answer.
-/

namespace OpenBioUnlock.Daemon

open Codec Runs

/-! ## Lines and responses -/

/-- The responses that a line can get. -/
inductive Answers : Except String Request → Response → Prop
  | invalid {error : String} : Answers (.error error) (.error ("invalid request: " ++ error))
  | paired {deviceId publicKey pairingCode : ByteString} {accepted : Bool} :
      Answers (.ok (.pair deviceId publicKey pairingCode)) (.paired accepted)
  | unpaired {deviceId publicKey pairingCode : ByteString} {message : String}
      (hmessage : message ∈ [pairingCodeRequired, publicKeyLength, pairingUnavailable]) :
      Answers (.ok (.pair deviceId publicKey pairingCode)) (.error message)
  | authorized {user : ByteString} {authorized : Bool} :
      Answers (.ok (.authorize user)) (.authorized authorized)
  | undrawn {user : ByteString} {error : String} :
      Answers (.ok (.authorize user)) (.error (CryptoError.random error).toString)
  | challenge {challengeId nonce : ByteString} {timestamp : UInt64} :
      Answers (.ok .challenge) (.challenge challengeId nonce timestamp)
  | nothingPending : Answers (.ok .challenge) (.error nothingPending)
  | verified {v : VerifyRequest} {authorized : Bool} :
      Answers (.ok (.verify v)) (.authorized authorized)

/-- The request that a task in a phase is about to answer. -/
inductive Serves : Phase → Request → Prop
  | pairLoad {deviceId publicKey pairingCode : ByteString} {key : ByteArr 32} :
      Serves (.pairLoad key pairingCode) (.pair deviceId publicKey pairingCode)
  | pairStore {deviceId publicKey pairingCode : ByteString} {key : ByteArr 32}
      {keys : List (ByteArr 32)} :
      Serves (.pairStore key pairingCode keys) (.pair deviceId publicKey pairingCode)
  | authorizeInsert {user challengeId : ByteString} {pending : PendingAuth} :
      Serves (.authorizeInsert challengeId pending) (.authorize user)
  | authorizeListen {user challengeId : ByteString} {notify : ℕ} :
      Serves (.authorizeListen challengeId notify) (.authorize user)
  | authorizeWait {user challengeId : ByteString} {notify : ℕ} :
      Serves (.authorizeWait challengeId notify) (.authorize user)
  | authorizeRemove {user challengeId : ByteString} {notify : ℕ} {authorized : Bool} :
      Serves (.authorizeRemove challengeId notify authorized) (.authorize user)
  | challenge : Serves .challenge .challenge
  | verifyLoad {v : VerifyRequest} : Serves (.verifyLoad v) (.verify v)
  | verifyCheck {v : VerifyRequest} {keys : List (ByteArr 32)} :
      Serves (.verifyCheck v keys) (.verify v)
  | verifyApprove {v : VerifyRequest} : Serves (.verifyApprove v) (.verify v)

/-- The line a step takes. -/
def takenLine (x : DaemonEntry) : Option (Except String Request) :=
  match x.act.2 with
  | .receive line _ => some line
  | _ => none

/-- The lines taken from a connection. -/
def linesOf (conn : Conn) (tr : List DaemonEntry) : List (Except String Request) :=
  (stepsOf conn tr).filterMap takenLine

/-- The responses handed to `write_all` on a connection. -/
def responsesOf (conn : Conn) (tr : List DaemonEntry) : List Response :=
  (stepsOf conn tr).filterMap fun x => x.out

/-- No request is under way: there is no task, or it is ready for a line. -/
def Resting (handler : Option Handler) : Prop :=
  ∀ h, handler = some h → h.phase = .idle

/-- **The responses are those to the lines**, up to the line the task is about to answer. -/
inductive Converses (conn : Conn) (tr : List DaemonEntry) (s : DaemonState) : Prop
  | resting (hrest : Resting (s.handlers conn))
      (hanswers : List.Forall₂ Answers (linesOf conn tr) (responsesOf conn tr))
  | serving {store : Bool} {p : Phase} {request : Request} {front : List (Except String Request)}
      (hconn : s.handlers conn = some ⟨store, p⟩) (hserves : Serves p request)
      (hlines : linesOf conn tr = front ++ [.ok request])
      (hanswers : List.Forall₂ Answers front (responsesOf conn tr))

/-! ## What a step says -/

/-- What a step does to the conversation of its connection. -/
inductive TalkStep (x : DaemonEntry) : Prop
  | silent (hline : takenLine x = none) (hout : x.out = none)
      (hpre : Resting (x.pre.handlers x.act.1)) (hpost : Resting (x.post.handlers x.act.1))
  | refuses {line : Except String Request} {r : Response} (hline : takenLine x = some line)
      (hout : x.out = some r) (hanswers : Answers line r)
      (hpre : Resting (x.pre.handlers x.act.1)) (hpost : Resting (x.post.handlers x.act.1))
  | takes {store : Bool} {p : Phase} {request : Request} (hline : takenLine x = some (.ok request))
      (hout : x.out = none) (hpre : Resting (x.pre.handlers x.act.1))
      (hpost : x.post.handlers x.act.1 = some ⟨store, p⟩) (hserves : Serves p request)
  | goesOn {store : Bool} {p q : Phase} (hline : takenLine x = none) (hout : x.out = none)
      (hpre : x.pre.handlers x.act.1 = some ⟨store, p⟩) (hbusy : p ≠ .idle)
      (hpost : x.post.handlers x.act.1 = some ⟨store, q⟩)
      (hserves : ∀ request, Serves p request → Serves q request)
  | answers {store : Bool} {p : Phase} {r : Response} (hline : takenLine x = none)
      (hout : x.out = some r) (hpre : x.pre.handlers x.act.1 = some ⟨store, p⟩)
      (hbusy : p ≠ .idle) (hpost : Resting (x.post.handlers x.act.1))
      (hanswers : ∀ request, Serves p request → Answers (.ok request) r)

section Steps

variable {dalek : Dalek} {x : DaemonEntry} {s : DaemonState} {conn : Conn} {store : Bool}

theorem resting_none : Resting none := by
  intro h hnone
  cases hnone

theorem resting_idle : Resting (some ⟨store, .idle⟩) := by
  intro h hidle
  cases hidle
  rfl

/-- A busy task is not resting. -/
theorem not_resting {p : Phase} (hconn : s.handlers conn = some ⟨store, p⟩) (hbusy : p ≠ .idle) :
    ¬ Resting (s.handlers conn) := fun hrest => hbusy (hrest _ hconn)

/-- What a line comes to, with the task it leaves: a response at once, or a phase that
serves it. -/
inductive Received (line : Except String Request) (handler : Option Handler) :
    Option Response → Prop
  | refused {r : Response} (hanswers : Answers line r)
      (hrest : Resting handler) : Received line handler (some r)
  | served {store : Bool} {p : Phase} {request : Request} (hline : line = .ok request)
      (hserves : Serves p request) (hgoes : handler = some ⟨store, p⟩) :
      Received line handler none

theorem received_respond {line : Except String Request} {r : Response} (h : Answers line r) :
    Received line ((s.respond conn store r).1.handlers conn) (s.respond conn store r).2 := by
  refine .refused h ?_
  rw [DaemonState.respond, goto_handlers]
  exact resting_idle

theorem received_proceed {p : Phase} {request : Request} (h : Serves p request) :
    Received (.ok request) ((s.proceed conn store p).1.handlers conn)
      (s.proceed conn store p).2 :=
  .served rfl h (goto_handlers store p)

theorem received_pair {deviceId publicKey pairingCode : ByteString} :
    Received (.ok (.pair deviceId publicKey pairingCode))
      ((s.receivePair conn store publicKey pairingCode).1.handlers conn)
      (s.receivePair conn store publicKey pairingCode).2 := by
  unfold DaemonState.receivePair
  split
  · exact received_respond (.unpaired (by simp))
  · split
    · split
      · exact received_proceed .pairLoad
      · exact received_respond (.unpaired (by simp))
    · exact received_respond (.unpaired (by simp))

/-- **Every line is refused with a response to it, or served.** -/
theorem received (s : DaemonState) (conn : Conn) (store : Bool) (line : Except String Request)
    (draws : Draws) :
    Received line ((s.receive conn store line draws).1.handlers conn)
      (s.receive conn store line draws).2 := by
  unfold DaemonState.receive
  split
  · exact received_respond .invalid
  · exact received_pair
  · unfold DaemonState.receiveAuthorize
    split
    · exact received_respond .undrawn
    · exact received_proceed .authorizeInsert
  · exact received_proceed .challenge
  · exact received_proceed .verifyLoad

/-- A line is taken by a task that is ready for it. -/
theorem receive_step {line : Except String Request} {draws : Draws}
    (hdoes : (daemonMachine dalek).Does x) (hact : x.act.2 = .receive line draws) :
    ∃ store, x.pre.handlers x.act.1 = some ⟨store, .idle⟩ ∧
      x.pre.receive x.act.1 store line draws = (x.post, x.out) := by
  have hready : ∃ store, x.pre.handlers x.act.1 = some ⟨store, .idle⟩ := by
    have hcase := does_case hdoes
    rw [hact] at hcase
    generalize x.post = post, x.out = out at hcase
    cases hcase with
    | quiet hconn hlocal => cases hlocal <;> exact ⟨_, hconn⟩
    | authorize hconn => exact ⟨_, hconn⟩
  obtain ⟨store, hconn⟩ := hready
  have hstep : x.pre.step dalek x.act.1 x.act.2 = some (x.post, x.out) := hdoes
  simp only [DaemonState.step, hconn, hact, Option.some.injEq] at hstep
  exact ⟨store, hconn, hstep⟩

/-- The step of a task that takes a line. -/
theorem talk_receive {line : Except String Request} {draws : Draws}
    (hdoes : (daemonMachine dalek).Does x) (hact : x.act.2 = .receive line draws) :
    TalkStep x := by
  have hline : takenLine x = some line := by rw [takenLine, hact]
  obtain ⟨store, hconn, hreceive⟩ := receive_step hdoes hact
  have hrest : Resting (x.pre.handlers x.act.1) := hconn ▸ resting_idle
  have hreceived := received x.pre x.act.1 store line draws
  rw [hreceive] at hreceived
  generalize hout : x.out = out at hreceived
  cases hreceived with
  | refused hanswers hrests => exact .refuses hline hout hanswers hrest hrests
  | served hrequest hserves hgoes =>
      exact .takes (hline.trans (congrArg some hrequest)) hout hrest hgoes hserves

/-- The step of a task that takes none. -/
theorem talk_busy (hdoes : (daemonMachine dalek).Does x) (hline : takenLine x = none) :
    TalkStep x := by
  have hcase := does_case hdoes
  obtain ⟨pre, ⟨conn, act⟩, out, post⟩ := x
  simp only at hcase
  cases hcase with
  | accept hconn => exact .silent hline rfl (hconn ▸ resting_none) (by simp [resting_idle])
  | close hconn => exact .silent hline rfl (hconn ▸ resting_idle) (by simp [resting_none])
  | quiet hconn hlocal =>
      cases hlocal with
      | refuse | pair | challenge | verify => simp [takenLine] at hline
      | pairRead hkeys =>
          exact .goesOn hline rfl hconn (by simp) (goto_handlers _ _)
            fun _ h => by cases h; exact .pairStore
      | verifyRead =>
          exact .goesOn hline rfl hconn (by simp) (goto_handlers _ _)
            fun _ h => by cases h; exact .verifyCheck
      | signed hok =>
          exact .goesOn hline rfl hconn (by simp) (goto_handlers _ _)
            fun _ h => by cases h; exact .verifyApprove
      | _ =>
          exact .answers hline rfl hconn (by simp) (by simp [resting_idle])
            fun _ h => by cases h; constructor
  | authorize => simp [takenLine] at hline
  | insert hconn | listen hconn | timeout hconn =>
      exact .goesOn hline rfl hconn (by simp) (goto_handlers _ _)
        fun _ h => by cases h; constructor
  | check hconn hnotified hq =>
      refine .goesOn hline rfl hconn (by simp) (goto_handlers _ _) fun _ h => ?_
      cases h
      rw [hq]
      split <;> constructor
  | store hconn | remove hconn | approve hconn =>
      exact .answers hline rfl hconn (by simp) (by simp [resting_idle])
        fun _ h => by cases h; constructor

/-- **What a step says.** -/
theorem talk_step (hdoes : (daemonMachine dalek).Does x) : TalkStep x := by
  cases hact : x.act.2 with
  | receive line draws => exact talk_receive hdoes hact
  | _ => exact talk_busy hdoes (by rw [takenLine, hact])

/-! ## What a run says -/

theorem linesOf_snoc_self (tr : List DaemonEntry) (x : DaemonEntry) :
    linesOf x.act.1 (tr ++ [x]) = linesOf x.act.1 tr ++ (takenLine x).toList := by
  rw [linesOf, stepsOf_snoc_self, List.filterMap_append, linesOf]
  cases h : takenLine x <;> simp [h]

theorem responsesOf_snoc_self (tr : List DaemonEntry) (x : DaemonEntry) :
    responsesOf x.act.1 (tr ++ [x]) = responsesOf x.act.1 tr ++ x.out.toList := by
  rw [responsesOf, stepsOf_snoc_self, List.filterMap_append, responsesOf]
  cases h : x.out <;> simp [h]

/-- A resting task has answered every line. -/
theorem Converses.answered {tr : List DaemonEntry} (h : Converses conn tr s)
    (hrest : Resting (s.handlers conn)) :
    List.Forall₂ Answers (linesOf conn tr) (responsesOf conn tr) := by
  cases h with
  | resting _ hanswers => exact hanswers
  | serving hconn hserves =>
      refine absurd hrest (not_resting hconn ?_)
      rintro rfl
      cases hserves

/-- A busy task has answered every line but the last. -/
theorem Converses.busy {tr : List DaemonEntry} {p : Phase} (h : Converses conn tr s)
    (hconn : s.handlers conn = some ⟨store, p⟩) (hbusy : p ≠ .idle) :
    ∃ request front, Serves p request ∧ linesOf conn tr = front ++ [.ok request] ∧
      List.Forall₂ Answers front (responsesOf conn tr) := by
  cases h with
  | resting hrest => exact absurd hrest (not_resting hconn hbusy)
  | serving hconn' hserves hlines hanswers =>
      rw [hconn] at hconn'
      cases hconn'
      exact ⟨_, _, hserves, hlines, hanswers⟩

/-- A step continues the conversation of its connection. -/
theorem Converses.snoc {tr : List DaemonEntry} (hdoes : (daemonMachine dalek).Does x)
    (h : Converses x.act.1 tr x.pre) : Converses x.act.1 (tr ++ [x]) x.post := by
  have hlines := linesOf_snoc_self tr x
  have hresponses := responsesOf_snoc_self tr x
  cases talk_step hdoes with
  | silent hline hout hpre hpost =>
      rw [hline, Option.toList_none, List.append_nil] at hlines
      rw [hout, Option.toList_none, List.append_nil] at hresponses
      refine .resting hpost ?_
      rw [hlines, hresponses]
      exact h.answered hpre
  | refuses hline hout hanswers hpre hpost =>
      refine .resting hpost ?_
      rw [hlines, hresponses, hline, hout]
      exact List.rel_append (h.answered hpre) (.cons hanswers .nil)
  | takes hline hout hpre hpost hserves =>
      rw [hline] at hlines
      rw [hout, Option.toList_none, List.append_nil] at hresponses
      refine .serving hpost hserves hlines ?_
      rw [hresponses]
      exact h.answered hpre
  | goesOn hline hout hpre hbusy hpost hkeeps =>
      rw [hline, Option.toList_none, List.append_nil] at hlines
      rw [hout, Option.toList_none, List.append_nil] at hresponses
      obtain ⟨request, front, hserves, hfront, hanswers⟩ := h.busy hpre hbusy
      exact .serving hpost (hkeeps request hserves) (hlines.trans hfront) (hresponses ▸ hanswers)
  | answers hline hout hpre hbusy hpost hanswers =>
      rw [hline, Option.toList_none, List.append_nil] at hlines
      rw [hout] at hresponses
      obtain ⟨request, front, hserves, hfront, hbefore⟩ := h.busy hpre hbusy
      refine .resting hpost ?_
      rw [hlines, hresponses, hfront]
      exact List.rel_append hbefore (.cons (hanswers request hserves) .nil)

end Steps

section Conversations

variable {dalek : Dalek} {vault : Option ByteString} {tr : List DaemonEntry} {s : DaemonState}

/-- **Every connection converses**, in every run. -/
theorem converses_run (hrun : Run (daemonMachine dalek) (DaemonState.initial vault) tr s)
    (conn : Conn) : Converses conn tr s := by
  refine hrun.history (P := fun tr s => Converses conn tr s) (.resting resting_none .nil) ?_
  intro tr x _ hdoes h
  by_cases hconn : x.act.1 = conn
  · subst hconn
    exact h.snoc hdoes
  · have hhandler := handlers_frame hdoes fun heq => hconn heq.symm
    have hlines : linesOf conn (tr ++ [x]) = linesOf conn tr := by
      rw [linesOf, stepsOf_snoc_ne tr x hconn, linesOf]
    have hresponses : responsesOf conn (tr ++ [x]) = responsesOf conn tr := by
      rw [responsesOf, stepsOf_snoc_ne tr x hconn, responsesOf]
    cases h with
    | resting hrest hanswers =>
        refine .resting (hhandler ▸ hrest) ?_
        rwa [hlines, hresponses]
    | serving hbusy hserves hfront hanswers =>
        exact .serving (hhandler.trans hbusy) hserves (hlines.trans hfront) (hresponses ▸ hanswers)

/-- **A conversation**: the responses answer the lines in their order, one for each but for
the request that is under way. -/
structure Conversation (conn : Conn) (tr : List DaemonEntry) (s : DaemonState) : Prop where
  inOrder : List.Forall₂ Answers ((linesOf conn tr).take (responsesOf conn tr).length)
    (responsesOf conn tr)
  complete : Resting (s.handlers conn) → (linesOf conn tr).length = (responsesOf conn tr).length
  awaited : ¬ Resting (s.handlers conn) →
    (linesOf conn tr).length = (responsesOf conn tr).length + 1

/-- **Every response on a connection answers its own line**, whatever the other tasks do. -/
theorem conversation (hrun : Run (daemonMachine dalek) (DaemonState.initial vault) tr s)
    (conn : Conn) : Conversation conn tr s := by
  cases converses_run hrun conn with
  | resting hrest hanswers =>
      have hlength := hanswers.length_eq
      refine ⟨?_, fun _ => hlength, fun hopen => absurd hrest hopen⟩
      rw [← hlength, List.take_length]
      exact hanswers
  | @serving store p request front hconn hserves hlines hanswers =>
      have hbusy : ¬ Resting (s.handlers conn) := by
        refine not_resting hconn ?_
        rintro rfl
        cases hserves
      have hlength := hanswers.length_eq
      refine ⟨?_, fun hrest => absurd hrest hbusy, fun _ => ?_⟩
      · rw [hlines, ← hlength, List.take_left]
        exact hanswers
      · rw [hlines, List.length_append, List.length_singleton, hlength]

end Conversations

/-- A line that is no request, and a `Challenge` while the `Authorize` of connection 1 waits. -/
def pipelinedTrace : List DaemonEntry :=
  daemonTrace (authorizeActs ++
    [(2, .accept true), (2, .receive (.error "expected value") sampleDraws),
      (2, .receive (.ok .challenge) sampleDraws), (2, .iterate 0)])

theorem conversation_sample :
    (responsesOf 1 pipelinedTrace = [] ∧ (responsesOf 2 pipelinedTrace).length = 2) ∧
      ∀ conn, List.Forall₂ Answers
        ((linesOf conn pipelinedTrace).take (responsesOf conn pipelinedTrace).length)
        (responsesOf conn pipelinedTrace) :=
  ⟨by decide +kernel, fun conn => (conversation (Run.trace _ _ _) conn).inOrder⟩

end OpenBioUnlock.Daemon

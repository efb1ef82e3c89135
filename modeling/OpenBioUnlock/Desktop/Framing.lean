import OpenBioUnlock.Codec.Frames
import OpenBioUnlock.Desktop.Pairing

/-!
# The sockets of the server

`acceptConnections`, `readClient` and `clientDisconnected` of `core/server.cpp`: what
the event loop does with the client sockets before a line gets to `processLine`.
Every socket has its buffer in `buffers_`.  `readClient` adds a chunk to it, and
passes on the lines that are complete.

`clientMachine` is the server with its sockets' signals and its callers in any
order.  `requests_framed` is the law of the framing: a socket's lines are those of
its stream, whatever the chunks are and whatever the other sockets do.
-/

namespace OpenBioUnlock.Desktop

open Codec Runs

/-! ## Reading a client -/

/-- What `QByteArray::trimmed` takes for white space. -/
def isSpace (b : UInt8) : Bool := b = 32 || 9 ≤ b && b ≤ 13

/-- `QByteArray::trimmed`. -/
def trimmed (line : QByteArray) : QByteArray :=
  ((line.dropWhile isSpace).reverse.dropWhile isSpace).reverse

/-- A socket's entry in `buffers_`. -/
def Server.withBuffer (server : Server) (socket : Socket) (buffer : Option QByteArray) : Server :=
  { server with buffers := fun k => if k = socket then buffer else server.buffers k }

variable (lib : Libraries)

/-- The loop of `readClient`, from a buffer that it has a reference to: the lines passed to
`processLine`, with the replies.  `env i` is what the `i`-th of the calls reads. -/
def Server.readLines (server : Server) (socket : Socket) (buffer : QByteArray)
    (env : ℕ → Env) : Server × List (QByteArray × Reply) :=
  if _h : 10 ∈ buffer then
    let line := trimmed (buffer.take (buffer.idxOf 10))
    let rest := buffer.drop (buffer.idxOf 10 + 1)
    if line = [] then server.readLines socket rest env
    else
      let (next, reply) := (server.withBuffer socket (some rest)).processLine lib line (env 0)
      let (last, more) := next.readLines socket rest fun i => env (i + 1)
      (last, (line, reply) :: more)
  else (server.withBuffer socket (some buffer), [])
termination_by buffer.length
decreasing_by
  all_goals
    have hlt := List.idxOf_lt_length_of_mem ‹10 ∈ buffer›
    rw [List.length_drop]
    omega

/-- `Server::readClient`, on a chunk that `readAll` returns. -/
def Server.readClient (server : Server) (socket : Socket) (chunk : QByteArray)
    (env : ℕ → Env) : Server × List (QByteArray × Reply) :=
  server.readLines lib socket ((server.buffers socket).getD [] ++ chunk) env

/-- `Server::acceptConnections`, on the connections that are pending. -/
def Server.acceptConnections (server : Server) : List Socket → Server
  | [] => server
  | socket :: pending => (server.withBuffer socket (some [])).acceptConnections pending

/-- `Server::clientDisconnected`. -/
def Server.clientDisconnected (server : Server) (socket : Socket) : Server :=
  server.withBuffer socket none

/-! ## The machine -/

inductive ClientEvent where
  | newConnection (pending : List Socket)
  | readyRead (socket : Socket) (chunk : QByteArray) (env : ℕ → Env)
  | disconnected (socket : Socket)
  /-- a call of `start`, `stop` or `pairingPayload` -/
  | call (event : ServerEvent)

/-- The server with its sockets; the output is what was passed to `processLine`. -/
def clientMachine : Machine Server ClientEvent (List (QByteArray × Reply)) where
  step server
    | .newConnection pending => some (server.acceptConnections pending, [])
    | .readyRead socket chunk env => some (server.readClient lib socket chunk env)
    | .disconnected socket => some (server.clientDisconnected socket, [])
    | .call (.line _ _ _) => none
    | .call event => some ((server.react lib event).1, [])

abbrev ClientEntry := Entry Server ClientEvent (List (QByteArray × Reply))

/-! ## The law -/

section Law

variable (socket : Socket)

/-- The bytes a step reads from the socket. -/
def chunkOf (x : ClientEntry) : QByteArray :=
  match x.act with
  | .readyRead k chunk _ => if k = socket then chunk else []
  | _ => []

/-- The lines of the socket that a step passes to `processLine`. -/
def linesOf (x : ClientEntry) : List QByteArray :=
  match x.act with
  | .readyRead k _ _ => if k = socket then x.out.map Prod.fst else []
  | _ => []

/-- The step begins the socket's stream anew. -/
def begins (x : ClientEntry) : Bool :=
  match x.act with
  | .newConnection pending => socket ∈ pending
  | .disconnected k => k = socket
  | .call .stop => true
  | _ => false

/-- The stream of the socket, since it was connected. -/
def clientStream (tr : List ClientEntry) : QByteArray :=
  (afterLast (begins socket) tr).flatMap (chunkOf socket)

/-- The lines passed to `processLine` from that stream. -/
def clientLines (tr : List ClientEntry) : List QByteArray :=
  (afterLast (begins socket) tr).flatMap (linesOf socket)

/-- The lines of a stream: trimmed, and not empty. -/
def requestLines (stream : QByteArray) : List QByteArray :=
  ((frames 10 stream).map trimmed).filter (· ≠ [])

/-- **The law of the framing.** -/
structure Framed (tr : List ClientEntry) (s : Server) : Prop where
  lines : clientLines socket tr = requestLines (clientStream socket tr)
  rest : (s.buffers socket).getD [] = remainder 10 (clientStream socket tr)

end Law

variable {lib}

/-! ## The loop -/

@[simp] theorem withBuffer_buffers (server : Server) (socket k : Socket)
    (buffer : Option QByteArray) :
    (server.withBuffer socket buffer).buffers k =
      if k = socket then buffer else server.buffers k := rfl

/-- A line leaves the buffers alone. -/
theorem buffers_processLine (server : Server) (line : QByteArray) (env : Env) :
    (server.processLine lib line env).1.buffers = server.buffers := by
  have hcase := processLine_case lib server line env
  generalize (server.processLine lib line env).1 = post at hcase
  generalize (server.processLine lib line env).2 = reply at hcase
  cases hcase <;> rfl

/-- The first line of a stream, if it is one. -/
theorem requestLines_cons {frame : QByteArray} (h : 10 ∉ frame) (rest : QByteArray) :
    requestLines (frame ++ 10 :: rest) =
      if trimmed frame = [] then requestLines rest else trimmed frame :: requestLines rest := by
  rw [requestLines, frames_cons h, List.map_cons, List.filter_cons, requestLines]
  by_cases hempty : trimmed frame = []
  · simp [hempty]
  · simp [hempty]

variable (lib) in
/-- **What the loop does**: it passes on the lines of the buffer, and leaves the rest of
it; the other buffers stay. -/
theorem readLines_spec (server : Server) (socket : Socket) (buffer : QByteArray)
    (env : ℕ → Env) :
    (server.readLines lib socket buffer env).2.map Prod.fst = requestLines buffer ∧
      ∀ k, (server.readLines lib socket buffer env).1.buffers k =
        if k = socket then some (remainder 10 buffer) else server.buffers k := by
  induction buffer using frames_induction (d := (10 : UInt8)) generalizing server env with
  | rest buffer h =>
      rw [Server.readLines, dif_neg h, requestLines, frames_of_not_mem h, remainder_of_not_mem h]
      exact ⟨rfl, fun k => rfl⟩
  | frame frame rest h ih =>
      have hmem : 10 ∈ frame ++ 10 :: rest := by simp
      have hidx : (frame ++ 10 :: rest).idxOf 10 = frame.length := by
        rw [List.idxOf_append_of_notMem h, List.idxOf_cons_self, Nat.add_zero]
      have htake : (frame ++ 10 :: rest).take frame.length = frame := List.take_left
      have hdrop : (frame ++ 10 :: rest).drop (frame.length + 1) = rest := by
        rw [List.drop_append]
        simp
      rw [Server.readLines, dif_pos hmem, hidx, htake, hdrop, requestLines_cons h,
        remainder_cons h]
      by_cases hempty : trimmed frame = []
      · simp only [hempty, if_true]
        exact ih server env
      · simp only [hempty, if_false]
        obtain ⟨hlines, hbuffers⟩ := ih
          ((server.withBuffer socket (some rest)).processLine lib (trimmed frame) (env 0)).1
          fun i => env (i + 1)
        refine ⟨by rw [List.map_cons, hlines], fun k => ?_⟩
        rw [hbuffers k, buffers_processLine, withBuffer_buffers]
        split <;> rfl

theorem acceptConnections_buffers (server : Server) (pending : List Socket) (k : Socket) :
    (server.acceptConnections pending).buffers k =
      if k ∈ pending then some [] else server.buffers k := by
  induction pending generalizing server with
  | nil => rfl
  | cons socket pending ih =>
      rw [Server.acceptConnections, ih, withBuffer_buffers]
      by_cases hmem : k ∈ pending
      · simp [hmem]
      · by_cases hk : k = socket <;> simp [hmem, hk]

/-- Of the calls, only `stop` touches the buffers. -/
theorem react_buffers (server : Server) {event : ServerEvent} (hstop : event ≠ .stop) :
    (server.react lib event).1.buffers = server.buffers := by
  have hcase := react_case lib server event
  generalize (server.react lib event).1 = post at hcase
  cases hcase with
  | stopped => exact absurd rfl hstop
  | line hline => cases hline <;> rfl
  | _ => rfl

/-! ## Runs -/

section Runs

variable {socket : Socket} {tr : List ClientEntry} {x : ClientEntry}

/-- A step that begins the stream anew leaves nothing in the buffer. -/
theorem framed_of_begins (hbegins : begins socket x = true)
    (hbuffer : (x.post.buffers socket).getD [] = []) : Framed socket (tr ++ [x]) x.post := by
  have hafter : afterLast (begins socket) (tr ++ [x]) = [] := by
    rw [afterLast_snoc, if_pos hbegins]
  have hstream : clientStream socket (tr ++ [x]) = [] := by rw [clientStream, hafter]; rfl
  refine ⟨?_, ?_⟩
  · rw [hstream, clientLines, hafter]
    rfl
  · rw [hstream, hbuffer]
    rfl

/-- A step that has nothing to do with the socket changes nothing. -/
theorem framed_of_keeps (h : Framed socket tr x.pre) (hbegins : begins socket x = false)
    (hchunk : chunkOf socket x = []) (hlines : linesOf socket x = [])
    (hbuffer : x.post.buffers socket = x.pre.buffers socket) :
    Framed socket (tr ++ [x]) x.post := by
  have hafter : afterLast (begins socket) (tr ++ [x]) = afterLast (begins socket) tr ++ [x] := by
    rw [afterLast_snoc, hbegins]
    rfl
  have hstream : clientStream socket (tr ++ [x]) = clientStream socket tr := by
    simp [clientStream, hafter, hchunk]
  refine ⟨?_, by rw [hbuffer, h.rest, hstream]⟩
  rw [hstream, ← h.lines, clientLines, hafter]
  simp [clientLines, hlines]

/-- A chunk of the socket. -/
theorem framed_of_read (h : Framed socket tr x.pre) {chunk : QByteArray} {env : ℕ → Env}
    (hact : x.act = .readyRead socket chunk env)
    (hdoes : x.pre.readClient lib socket chunk env = (x.post, x.out)) :
    Framed socket (tr ++ [x]) x.post := by
  have hbegins : begins socket x = false := by rw [begins, hact]
  have hafter : afterLast (begins socket) (tr ++ [x]) = afterLast (begins socket) tr ++ [x] := by
    rw [afterLast_snoc, hbegins]
    rfl
  have hchunk : chunkOf socket x = chunk := by rw [chunkOf, hact]; exact if_pos rfl
  have hout : linesOf socket x = x.out.map Prod.fst := by rw [linesOf, hact]; exact if_pos rfl
  have hstream : clientStream socket (tr ++ [x]) = clientStream socket tr ++ chunk := by
    simp [clientStream, hafter, hchunk]
  rw [Server.readClient, h.rest] at hdoes
  obtain ⟨hlines, hbuffers⟩ := readLines_spec lib x.pre socket
    (remainder 10 (clientStream socket tr) ++ chunk) env
  rw [hdoes] at hlines hbuffers
  constructor
  · rw [hstream, requestLines, frames_append, List.map_append, List.filter_append,
      ← requestLines, ← h.lines, ← requestLines, ← hlines, clientLines, hafter]
    simp [clientLines, hout]
  · rw [hbuffers socket, if_pos rfl, Option.getD_some, hstream, ← remainder_append]

/-- Every step keeps the law. -/
theorem framed_step (hdoes : (clientMachine lib).Does x) (h : Framed socket tr x.pre) :
    Framed socket (tr ++ [x]) x.post := by
  cases hact : x.act with
  | newConnection pending =>
      simp only [Machine.Does, clientMachine, hact, Option.some.injEq, Prod.mk.injEq] at hdoes
      have hbuffer := acceptConnections_buffers x.pre pending socket
      rw [hdoes.1] at hbuffer
      by_cases hmem : socket ∈ pending
      · refine framed_of_begins ?_ (by rw [hbuffer, if_pos hmem]; rfl)
        simp [begins, hact, hmem]
      · refine framed_of_keeps h ?_ (by simp [chunkOf, hact]) (by simp [linesOf, hact])
          (by rw [hbuffer, if_neg hmem])
        simp [begins, hact, hmem]
  | readyRead k chunk env =>
      simp only [Machine.Does, clientMachine, hact, Option.some.injEq] at hdoes
      by_cases hk : k = socket
      · subst hk
        exact framed_of_read h hact hdoes
      · have hbuffer := (readLines_spec lib x.pre k
          ((x.pre.buffers k).getD [] ++ chunk) env).2 socket
        rw [← Server.readClient, hdoes, if_neg fun heq => hk heq.symm] at hbuffer
        exact framed_of_keeps h (by simp [begins, hact]) (by simp [chunkOf, hact, hk])
          (by simp [linesOf, hact, hk]) hbuffer
  | disconnected k =>
      simp only [Machine.Does, clientMachine, hact, Option.some.injEq, Prod.mk.injEq] at hdoes
      have hbuffer := withBuffer_buffers x.pre k socket none
      rw [← Server.clientDisconnected, hdoes.1] at hbuffer
      by_cases hk : k = socket
      · apply framed_of_begins (by simp [begins, hact, hk])
        rw [hbuffer, if_pos hk.symm]
        rfl
      · exact framed_of_keeps h (by simp [begins, hact, hk]) (by simp [chunkOf, hact])
          (by simp [linesOf, hact]) (by rw [hbuffer, if_neg fun heq => hk heq.symm])
  | call event =>
      cases event with
      | line k line env =>
          simp only [Machine.Does, clientMachine, hact] at hdoes
          cases hdoes
      | stop =>
          simp only [Machine.Does, clientMachine, hact, Option.some.injEq, Prod.mk.injEq] at hdoes
          exact framed_of_begins (by simp [begins, hact]) (by rw [← hdoes.1]; rfl)
      | start port listen bind env | pairingPayload host addresses env =>
          simp only [Machine.Does, clientMachine, hact, Option.some.injEq, Prod.mk.injEq] at hdoes
          have hbuffers : x.post.buffers = x.pre.buffers := by
            rw [← hdoes.1]
            exact react_buffers x.pre (by simp)
          exact framed_of_keeps h (by simp [begins, hact]) (by simp [chunkOf, hact])
            (by simp [linesOf, hact]) (congrFun hbuffers socket)

/-- **The requests are framed**: every socket's lines are those of its own stream. -/
theorem requests_framed {pcId : QByteArray} {keyPair : X25519KeyPair} {tr : List ClientEntry}
    {s : Server} (hrun : Run (clientMachine lib) (Server.initial pcId keyPair) tr s)
    (socket : Socket) : Framed socket tr s :=
  hrun.history ⟨rfl, rfl⟩ fun _ _ _ hdoes h => framed_step hdoes h

/-- Two clients: one sends a pairing request in two chunks, the other blank lines. -/
def framedTrace : List ClientEntry :=
  (clientMachine (recording [] []).libraries).trace (Server.initial samplePcId sampleKeyPair)
    [.newConnection [1, 2],
      .readyRead 1 ((compactJson phonePair).take 9) fun _ => standing sampleTime 0,
      .readyRead 2 [13, 10, 32, 10, 123] fun _ => standing sampleTime 0,
      .readyRead 1 ((compactJson phonePair).drop 9 ++ [10]) fun _ => standing sampleTime 0]

theorem requests_framed_sample :
    clientLines 1 framedTrace = [compactJson phonePair] ∧ clientLines 2 framedTrace = [] := by
  have hone := (requests_framed (Run.trace _ _ _) 1 : Framed 1 framedTrace _).lines
  have htwo := (requests_framed (Run.trace _ _ _) 2 : Framed 2 framedTrace _).lines
  exact ⟨hone.trans (by decide +kernel), htwo.trans (by decide +kernel)⟩

end Runs

/-! ## The server behind the sockets

The lines are requests of `serverMachine`, whose runs do not look at the buffers.
-/

/-- The server without its buffers. -/
def Server.unbuffered (server : Server) : Server := { server with buffers := fun _ => none }

theorem unbuffered_withBuffer (server : Server) (socket : Socket) (buffer : Option QByteArray) :
    (server.withBuffer socket buffer).unbuffered = server.unbuffered := rfl

theorem acceptConnections_unbuffered (server : Server) (pending : List Socket) :
    (server.acceptConnections pending).unbuffered = server.unbuffered := by
  induction pending generalizing server with
  | nil => rfl
  | cons socket pending ih => rw [Server.acceptConnections, ih, unbuffered_withBuffer]

theorem processPair_unbuffered (server : Server) (r : PairRequest) (env : Env) :
    server.unbuffered.processPair lib r env =
      ((server.processPair lib r env).1.unbuffered, (server.processPair lib r env).2) := by
  unfold Server.processPair
  by_cases hfields : server.pairFieldsOk r (env.clock 0)
  · have hfields' : server.unbuffered.pairFieldsOk r (env.clock 0) := hfields
    simp only [hfields, hfields', if_true]
    have hshared : x25519SharedSecret lib.ssl server.unbuffered.x25519KeyPair.privateKey
        r.deviceKey = x25519SharedSecret lib.ssl server.x25519KeyPair.privateKey r.deviceKey := rfl
    rw [hshared]
    split <;> rfl
  · have hfields' : ¬ server.unbuffered.pairFieldsOk r (env.clock 0) := hfields
    simp only [hfields, hfields', if_false]

variable (lib) in
/-- A line is processed the same without the buffers. -/
theorem processLine_unbuffered (server : Server) (line : QByteArray) (env : Env) :
    server.unbuffered.processLine lib line env =
      ((server.processLine lib line env).1.unbuffered, (server.processLine lib line env).2) := by
  unfold Server.processLine
  cases hjson : lib.qt.fromJson line with
  | none => rfl
  | some request =>
      by_cases hpair : typeOf request = qStringLiteral "pair"
      · simp only [hpair, if_true]
        exact processPair_unbuffered server (pairRequest request) env
      · simp only [hpair, if_false]
        have hopen : server.unbuffered.decryptRequest lib request =
            server.decryptRequest lib request := rfl
        rw [hopen]
        cases server.decryptRequest lib request with
        | error message => rfl
        | ok opened =>
            obtain ⟨id, decrypted⟩ := opened
            by_cases hchallenge : typeOf decrypted = qStringLiteral "challenge"
            · simp only [hchallenge, if_true]
              rfl
            · by_cases hverify : typeOf decrypted = qStringLiteral "verify"
              · simp only [hverify, if_true]
                rfl
              · simp only [hchallenge, hverify, if_false]
                rfl

/-- The line a request of the server is. -/
def lineOf (y : ServerEntry) : Option QByteArray :=
  match y.act with
  | .line _ line _ => some line
  | _ => none

/-- The line and what it is answered with. -/
def exchangeOf (y : ServerEntry) : Option (QByteArray × Reply) :=
  match y.act, y.out with
  | .line _ line _, .reply _ _ reply => some (line, reply)
  | _, _ => none

theorem lineOf_eq {y : ServerEntry} (hdoes : (serverMachine lib).Does y) :
    lineOf y = (exchangeOf y).map Prod.fst := by
  obtain ⟨pre, act, out, post⟩ := y
  cases act with
  | line socket line env =>
      obtain ⟨reply, hout, -⟩ := does_line hdoes rfl
      simp only at hout
      subst hout
      rfl
  | _ => rfl

/-- The loop is a run of the server on the lines. -/
theorem run_readLines {init : Server} (server : Server) (socket : Socket) (buffer : QByteArray)
    (env : ℕ → Env) : ∀ tr : List ServerEntry, Run (serverMachine lib) init tr server.unbuffered →
    ∃ more, Run (serverMachine lib) init (tr ++ more)
        (server.readLines lib socket buffer env).1.unbuffered ∧
      more.filterMap exchangeOf = (server.readLines lib socket buffer env).2 := by
  fun_induction Server.readLines lib server socket buffer env with
  | case1 server buffer env hmem line rest hempty ih =>
      intro tr hrun
      exact ih tr hrun
  | case2 server buffer env hmem line rest hline next reply hnext last answered hlast ih =>
      intro tr hrun
      -- the line is a step of the server, and the rest of the loop goes on from there
      have hstep := processLine_unbuffered lib (server.withBuffer socket (some rest)) line
        (env 0)
      rw [hnext, unbuffered_withBuffer] at hstep
      let y : ServerEntry := ⟨server.unbuffered, .line socket line (env 0),
        .reply socket (lib.qt.toJson reply.response ++ [10]) reply, next.unbuffered⟩
      have hdoes : (serverMachine lib).Does y := by
        simp only [Machine.Does, serverMachine, y, Server.react, hstep]
      obtain ⟨more, hmore, hlines⟩ := ih (tr ++ [y]) (hrun.snoc hdoes)
      rw [List.append_assoc, hlast] at hmore
      refine ⟨_, hmore, ?_⟩
      rw [List.filterMap_append, hlines, hlast]
      rfl
  | case3 server buffer env hnone =>
      intro tr hrun
      exact ⟨[], by rwa [List.append_nil], rfl⟩

/-- A call is the same without the buffers. -/
theorem react_unbuffered (server : Server) {event : ServerEvent}
    (hline : ∀ socket line env, event ≠ .line socket line env) :
    (server.unbuffered.react lib event).1 = (server.react lib event).1.unbuffered := by
  cases event with
  | line socket line env => exact absurd rfl (hline socket line env)
  | stop => rfl
  | start port listen bind env =>
      have hrunning : server.unbuffered.isRunning = server.isRunning := rfl
      have hkey : server.unbuffered.x25519KeyPair = server.x25519KeyPair := rfl
      simp only [Server.react, Server.start, hrunning, hkey]
      split
      · rfl
      · split
        · rfl
        · cases listen with
          | error message => rfl
          | ok bound => cases bind <;> rfl
  | pairingPayload host addresses env =>
      have hexpired : server.unbuffered.codeExpired (env.clock 0) =
          server.codeExpired (env.clock 0) := rfl
      simp only [Server.react, Server.pairingPayload, Server.refreshCode, hexpired]
      split <;> rfl

/-- **Behind the sockets is the server**: it takes the lines passed on, in their order, and
gives the replies. -/
theorem run_exchanges {init s : Server} {tr : List ClientEntry}
    (hrun : Run (clientMachine lib) init tr s) :
    ∃ requests, Run (serverMachine lib) init.unbuffered requests s.unbuffered ∧
      requests.filterMap exchangeOf = tr.flatMap Entry.out := by
  refine hrun.history (P := fun tr s => ∃ requests,
    Run (serverMachine lib) init.unbuffered requests s.unbuffered ∧
      requests.filterMap exchangeOf = tr.flatMap Entry.out) ⟨[], .nil, rfl⟩ ?_
  rintro tr x - hdoes ⟨requests, hrequests, hlines⟩
  cases hact : x.act with
  | newConnection pending =>
      simp only [Machine.Does, clientMachine, hact, Option.some.injEq, Prod.mk.injEq] at hdoes
      refine ⟨requests, ?_, by simp [hlines, ← hdoes.2]⟩
      rw [← hdoes.1, acceptConnections_unbuffered]
      exact hrequests
  | disconnected socket =>
      simp only [Machine.Does, clientMachine, hact, Option.some.injEq, Prod.mk.injEq] at hdoes
      refine ⟨requests, ?_, by simp [hlines, ← hdoes.2]⟩
      rw [← hdoes.1, Server.clientDisconnected, unbuffered_withBuffer]
      exact hrequests
  | readyRead socket chunk env =>
      simp only [Machine.Does, clientMachine, hact, Option.some.injEq] at hdoes
      obtain ⟨more, hmore, hpassed⟩ := run_readLines x.pre socket
        ((x.pre.buffers socket).getD [] ++ chunk) env requests hrequests
      rw [← Server.readClient, hdoes] at hmore hpassed
      refine ⟨_, hmore, ?_⟩
      rw [List.filterMap_append, hlines, hpassed]
      simp
  | call event =>
      have hline : ∀ socket line env, event ≠ .line socket line env := by
        rintro socket line env rfl
        simp only [Machine.Does, clientMachine, hact] at hdoes
        cases hdoes
      have hpost : x.post = (x.pre.react lib event).1 ∧ x.out = [] := by
        cases event with
        | line socket line env => exact absurd rfl (hline socket line env)
        | _ =>
            simp only [Machine.Does, clientMachine, hact, Option.some.injEq, Prod.mk.injEq] at hdoes
            exact ⟨hdoes.1.symm, hdoes.2.symm⟩
      let y : ServerEntry := ⟨x.pre.unbuffered, event, (x.pre.unbuffered.react lib event).2,
        (x.pre.unbuffered.react lib event).1⟩
      have hy : (serverMachine lib).Does y := rfl
      have hnone : exchangeOf y = none := by
        cases event with
        | line socket line env => exact absurd rfl (hline socket line env)
        | _ => rfl
      have hend : y.post = x.post.unbuffered := by
        rw [hpost.1]
        exact react_unbuffered x.pre hline
      refine ⟨requests ++ [y], hend ▸ hrequests.snoc hy, ?_⟩
      rw [List.filterMap_append, hlines]
      simp [hnone, hpost.2]

theorem run_server {init s : Server} {tr : List ClientEntry}
    (hrun : Run (clientMachine lib) init tr s) :
    ∃ requests, Run (serverMachine lib) init.unbuffered requests s.unbuffered ∧
      requests.filterMap lineOf = tr.flatMap fun x => x.out.map Prod.fst := by
  obtain ⟨requests, hrequests, hexchanges⟩ := run_exchanges hrun
  refine ⟨requests, hrequests, ?_⟩
  calc requests.filterMap lineOf
      = requests.filterMap fun y => (exchangeOf y).map Prod.fst :=
        List.filterMap_congr fun y hy => lineOf_eq (hrequests.does_of_mem hy)
    _ = (requests.filterMap exchangeOf).map Prod.fst := List.map_filterMap.symm
    _ = tr.flatMap fun x => x.out.map Prod.fst := by rw [hexchanges, List.map_flatMap]

end OpenBioUnlock.Desktop

import OpenBioUnlock.Desktop.Framing

/-!
# The conversation on a socket

What `readClient` writes to its socket, over a whole connection.

`socket_conversation` says that a client which cuts what it reads into lines finds there the
replies to the lines it has sent, one for each that is not blank and in their order, however
its own stream was cut and whatever the other clients do; and that the replies to all the
clients are those of one server, which took the lines one after the other.
-/

namespace OpenBioUnlock.Desktop

open Codec Runs

variable (lib : Libraries)

section Written

variable (socket : Socket)

/-- The lines of the socket that a step passes on, with the replies. -/
def exchangesOf (x : ClientEntry) : List (QByteArray × Reply) :=
  match x.act with
  | .readyRead k _ _ => if k = socket then x.out else []
  | _ => []

/-- The exchanges since the socket was connected. -/
def clientExchanges (tr : List ClientEntry) : List (QByteArray × Reply) :=
  (afterLast (begins socket) tr).flatMap (exchangesOf socket)

/-- What has been written to the socket since then. -/
def clientWritten (tr : List ClientEntry) : QByteArray :=
  (clientExchanges socket tr).flatMap fun e => lib.qt.toJson e.2.response ++ [10]

end Written

variable {lib} {socket : Socket} {tr : List ClientEntry} {s : Server} {pcId : QByteArray}
  {keyPair : X25519KeyPair}

theorem clientLines_eq (tr : List ClientEntry) :
    clientLines socket tr = (clientExchanges socket tr).map Prod.fst := by
  have hlines : ∀ x : ClientEntry, linesOf socket x = (exchangesOf socket x).map Prod.fst := by
    intro x
    unfold linesOf exchangesOf
    cases x.act with
    | readyRead k chunk env =>
        by_cases hk : k = socket
        · simp [hk]
        · simp [hk]
    | _ => rfl
  rw [clientLines, clientExchanges, List.map_flatMap]
  exact List.flatMap_congr fun x _ => hlines x

/-- A step of the socket's passes on what it passes on. -/
theorem exchangesOf_sublist (x : ClientEntry) : (exchangesOf socket x).Sublist x.out := by
  unfold exchangesOf
  split
  · split_ifs
    · exact List.Sublist.refl _
    · exact List.nil_sublist _
  · exact List.nil_sublist _

/-- The exchanges of a socket are in their order among those of all. -/
theorem clientExchanges_sublist (tr : List ClientEntry) :
    (clientExchanges socket tr).Sublist (tr.flatMap Entry.out) := by
  have hall : ∀ xs : List ClientEntry,
      (xs.flatMap (exchangesOf socket)).Sublist (xs.flatMap Entry.out) := by
    intro xs
    induction xs with
    | nil => exact List.Sublist.refl _
    | cons x xs ih =>
        rw [List.flatMap_cons, List.flatMap_cons]
        exact (exchangesOf_sublist x).append ih
  refine (hall _).trans ?_
  have hsuffix := afterLast_suffix (begins socket) tr
  generalize afterLast (begins socket) tr = connected at hsuffix
  obtain ⟨before, rfl⟩ := hsuffix
  rw [List.flatMap_append]
  exact List.sublist_append_right _ _

/-- What is written consists of whole lines, one for each exchange. -/
theorem frames_clientWritten (hjson : ∀ object, 10 ∉ lib.qt.toJson object)
    (tr : List ClientEntry) :
    frames 10 (clientWritten lib socket tr) =
        (clientExchanges socket tr).map (fun e => lib.qt.toJson e.2.response) ∧
      remainder 10 (clientWritten lib socket tr) = [] := by
  have hwritten : clientWritten lib socket tr =
      ((clientExchanges socket tr).map fun e => lib.qt.toJson e.2.response).flatMap
        fun json => json ++ [10] := by
    rw [clientWritten, List.flatMap_map]
  rw [hwritten]
  apply frames_flatMap
  intro json hmem
  obtain ⟨e, -, rfl⟩ := List.mem_map.mp hmem
  exact hjson _

/-- **The conversation on a socket**: one run of the server answers the requests of every
stream, each with a line, in their order. -/
theorem socket_conversation (hjson : ∀ object, 10 ∉ lib.qt.toJson object)
    (hrun : Run (clientMachine lib) (Server.initial pcId keyPair) tr s) :
    ∃ requests, Run (serverMachine lib) (Server.initial pcId keyPair) requests s.unbuffered ∧
      ∀ socket, ∃ exchanges : List (QByteArray × Reply),
        exchanges.Sublist (requests.filterMap exchangeOf) ∧
          exchanges.map Prod.fst = requestLines (clientStream socket tr) ∧
          frames 10 (clientWritten lib socket tr) =
            exchanges.map (fun e => lib.qt.toJson e.2.response) ∧
          remainder 10 (clientWritten lib socket tr) = [] := by
  obtain ⟨requests, hrequests, hexchanges⟩ := run_exchanges hrun
  refine ⟨requests, hrequests, fun socket => ⟨clientExchanges socket tr, ?_, ?_, ?_⟩⟩
  · rw [hexchanges]
    exact clientExchanges_sublist tr
  · have hframed : Framed socket tr s :=
      hrun.history ⟨rfl, rfl⟩ fun _ _ _ hdoes h => framed_step hdoes h
    rw [← hframed.lines, clientLines_eq]
  · exact frames_clientWritten hjson tr

/-- The libraries of the sample runs, with a writer that breaks no line. -/
def unbrokenLibraries : Libraries where
  qt := { (recording [] []).libraries.qt with
    toJson := fun object => (compactJson object).filter (· ≠ 10) }
  ssl := (recording [] []).libraries.ssl

/-- A client sends a pairing request in two chunks, and another a blank line and no JSON. -/
def conversationTrace : List ClientEntry :=
  (clientMachine unbrokenLibraries).trace (Server.initial samplePcId sampleKeyPair)
    [.call startEvent, .newConnection [1, 2],
      .readyRead 1 ((compactJson phonePair).take 9) fun _ => standing sampleTime 0,
      .readyRead 2 [13, 10, 123, 10] fun _ => standing sampleTime 0,
      .readyRead 1 ((compactJson phonePair).drop 9 ++ [10]) fun _ => standing sampleTime 0]

theorem socket_conversation_sample :
    ∃ exchanges : List (QByteArray × Reply),
      exchanges.map Prod.fst = [compactJson phonePair] ∧
        frames 10 (clientWritten unbrokenLibraries 1 conversationTrace) =
          exchanges.map fun e => unbrokenLibraries.qt.toJson e.2.response := by
  have hjson : ∀ object, 10 ∉ unbrokenLibraries.qt.toJson object := by
    intro object hmem
    simpa using (List.mem_filter.mp hmem).2
  have hrun : Run (clientMachine unbrokenLibraries) (Server.initial samplePcId sampleKeyPair)
      conversationTrace _ := Run.trace _ _ _
  obtain ⟨requests, -, hsockets⟩ := socket_conversation hjson hrun
  obtain ⟨exchanges, -, hlines, hframes, -⟩ := hsockets 1
  have hstream : requestLines (clientStream 1 conversationTrace) = [compactJson phonePair] := by
    decide +kernel
  exact ⟨exchanges, hlines.trans hstream, hframes⟩

end OpenBioUnlock.Desktop

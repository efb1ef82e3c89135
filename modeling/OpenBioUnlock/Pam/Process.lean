import OpenBioUnlock.Machine.OneTime
import OpenBioUnlock.Pam.Encoding
import Mathlib.Algebra.Group.Nat.Even
import Mathlib.Data.List.DropRight

/-!
# The PAM module in a process

The entry points of `linux-pam/pam_openbiounlock.c`, as a process calls them one after the
other on a `pam_handle_t`.  `socket_path` is a static variable that points into the arguments
of the module, which live as long as the handle: what one call sets stays for the calls after it.

`processMachine` is the module with the variable as its state; what a call does to its
descriptor is part of the output.  `socket_selected` says which socket a call goes to, in terms
of all the arguments so far, and that it is `pamSmAuthenticate` there and leaves no descriptor
open.
-/

namespace OpenBioUnlock.Pam

open Codec Runs

/-! ## The socket -/

def defaultPath : CString := ⟨ascii "/var/run/openbiounlock.sock", by decide⟩

def socketFlag : CString := ⟨ascii "socket", by decide⟩

/-- The loop over the arguments, from a value of `socket_path`. -/
def selectPath (socketPath : CString) : List CString → CString
  | argument :: value :: rest =>
      if argument = socketFlag then selectPath value rest
      else selectPath socketPath (value :: rest)
  | _ => socketPath

def sunPathCapacity : ℕ := 108

/-- `address.sun_path`: zeros, into which `strncpy` has copied the path. -/
def sunPath (socketPath : CString) : Bytes :=
  let copied := socketPath.1.take (sunPathCapacity - 1)
  copied ++ List.replicate (sunPathCapacity - copied.length) 0

/-! ## The entry points -/

/-- What is done to a descriptor. -/
inductive SocketCall where
  | socket (descriptor : Option ℕ)
  | connect (fd : ℕ) (sunPath : Bytes)
  /-- a `write_all`, with the bytes the socket has taken -/
  | writeAll (fd : ℕ) (taken : Bytes)
  /-- a `read_line`, with the line it has returned -/
  | readLine (fd : ℕ) (line : Option Bytes)
  | close (fd : ℕ)
  deriving DecidableEq

/-- What there is at an address. -/
structure Peer where
  connect : Bool
  poller : Poller
  writes : List Written
  reads : List Received

structure ProcessEnv where
  username : Option CString
  /-- the descriptor that `socket` returns -/
  descriptor : Option ℕ
  peer : Bytes → Peer

/-- The environment of a call that goes to an address. -/
def ProcessEnv.at (env : ProcessEnv) (address : Bytes) : PamEnv where
  username := env.username
  socket := env.descriptor.isSome
  connect := (env.peer address).connect
  poller := (env.peer address).poller
  writes := (env.peer address).writes
  reads := (env.peer address).reads

/-- What `pam_sm_authenticate` does with the descriptor, and the result if there is one yet. -/
def converse (fd : ℕ) (peer : Peer) (username : CString) : List SocketCall × Option PamResult :=
  if peer.connect then
    if (request username).length < requestCapacity then
      let run := writeAll (request username) 0 peer.poller peer.writes
      let written := [.writeAll fd run.sent]
      match run.result with
      | none => (written, none)
      | some false => (written ++ [.close fd], some .authErr)
      | some true =>
          match readLine responseCapacity [] run.poller peer.reads with
          | none => (written, none)
          | some none => (written ++ [.readLine fd none, .close fd], some .authErr)
          | some (some response) =>
              (written ++ [.readLine fd (some response), .close fd],
                some (if responseIsAuthorized response then .success else .authErr))
    else ([.close fd], some .authErr)
  else ([.close fd], some .authErr)

/-- `pam_sm_authenticate`, from a value of `socket_path`. -/
def authenticate (socketPath : CString) (argv : List CString) (env : ProcessEnv) :
    CString × List SocketCall × Option PamResult :=
  match env.username with
  | none => (socketPath, [], some .authErr)
  | some username =>
      let selected := selectPath socketPath argv
      match env.descriptor with
      | none => (selected, [.socket none], some .authErr)
      | some fd =>
          let (calls, result) := converse fd (env.peer (sunPath selected)) username
          (selected, .socket (some fd) :: .connect fd (sunPath selected) :: calls, result)

inductive ReturnCode where
  | success
  | authErr
  | serviceErr
  deriving DecidableEq

def PamResult.code : PamResult → ReturnCode
  | .success => .success
  | .authErr => .authErr

inductive EntryPoint where
  | authenticate (argv : List CString) (env : ProcessEnv)
  | setcred
  | acctMgmt
  | openSession
  | closeSession
  | chauthtok

/-- The module in its process.  An `authenticate` that is still waiting is no step. -/
def processMachine : Machine CString EntryPoint (List SocketCall × ReturnCode) where
  step socketPath
    | .authenticate argv env =>
        let (selected, calls, result) := Pam.authenticate socketPath argv env
        result.map fun result => (selected, calls, result.code)
    | .setcred | .acctMgmt | .openSession | .closeSession =>
        some (socketPath, [], .success)
    | .chauthtok => some (socketPath, [], .serviceErr)

abbrev ProcessEntry := Entry CString EntryPoint (List SocketCall × ReturnCode)

/-! ## The law -/

/-- The flags a list ends with. -/
def flagsAtEnd (arguments : List CString) : ℕ :=
  (arguments.rtakeWhile (· = socketFlag)).length

/-- The value follows a flag that is not itself the value of a flag, and no flag with a value
follows. -/
def IsSocketArgument (argv : List CString) (value : CString) : Prop :=
  ∃ before after, argv = before ++ socketFlag :: value :: after ∧ Even (flagsAtEnd before) ∧
    socketFlag ∉ after.dropLast

/-- The call has a user, and names a socket. -/
def Names (x : ProcessEntry) (path : CString) : Prop :=
  ∃ argv env, x.act = .authenticate argv env ∧ env.username.isSome ∧ IsSocketArgument argv path

/-- The path is the one that was named last, or the default. -/
def Selects (tr : List ProcessEntry) (path : CString) : Prop :=
  (∃ pre x post, tr = pre ++ x :: post ∧ Names x path ∧ ∀ y ∈ post, ∀ other, ¬ Names y other) ∨
    (∀ x ∈ tr, ∀ other, ¬ Names x other) ∧ path = defaultPath

/-- The descriptor a call is on. -/
def SocketCall.on : SocketCall → Option ℕ
  | .socket _ => none
  | .connect fd _ | .writeAll fd _ | .readLine fd _ | .close fd => some fd

/-- What was opened is closed, once and last. -/
inductive Released : List SocketCall → Prop
  | nothing : Released []
  | unopened : Released [.socket none]
  | closed {fd : ℕ} {calls : List SocketCall}
      (huse : ∀ call ∈ calls, call.on = some fd ∧ call ≠ .close fd) :
      Released (.socket (some fd) :: calls ++ [.close fd])

/-- The bytes that a socket has taken. -/
def sentBy (calls : List SocketCall) : Bytes :=
  calls.flatMap fun
    | .writeAll _ taken => taken
    | _ => []

/-- The call is one of `pam_sm_authenticate` to the socket of the path, and to no other. -/
structure ServedBy (path : CString) (env : ProcessEnv) (calls : List SocketCall)
    (code : ReturnCode) : Prop where
  result : (pamSmAuthenticate (env.at (sunPath path))).result.map PamResult.code = some code
  sent : (pamSmAuthenticate (env.at (sunPath path))).sent = sentBy calls
  address : ∀ fd address, .connect fd address ∈ calls → address = sunPath path
  released : Released calls

/-! ## The arguments -/

variable {argv before : List CString} {socketPath value path : CString}

theorem flagsAtEnd_concat (before : List CString) (argument : CString) :
    flagsAtEnd (before ++ [argument]) =
      if argument = socketFlag then flagsAtEnd before + 1 else 0 := by
  rw [flagsAtEnd, List.rtakeWhile_concat]
  by_cases hflag : argument = socketFlag
  · simp [hflag, flagsAtEnd]
  · simp [hflag]

theorem flagsAtEnd_cons (argument : CString) (before : List CString) :
    flagsAtEnd (argument :: before) =
      flagsAtEnd before +
        if argument = socketFlag ∧ ∀ other ∈ before, other = socketFlag then 1 else 0 := by
  induction before using List.reverseRecOn with
  | nil =>
      rw [← List.nil_append [argument], flagsAtEnd_concat]
      simp [flagsAtEnd]
  | append_singleton before last ih =>
      rw [← List.cons_append, flagsAtEnd_concat, flagsAtEnd_concat, ih]
      by_cases hlast : last = socketFlag
      · have hall : (∀ other ∈ before ++ [last], other = socketFlag) ↔
            ∀ other ∈ before, other = socketFlag := by
          rw [List.forall_mem_append, List.forall_mem_singleton, and_iff_left hlast]
        rw [if_pos hlast, if_pos hlast]
        simp only [hall]
        omega
      · have hall : ¬ ∀ other ∈ before ++ [last], other = socketFlag := by
          rw [List.forall_mem_append, List.forall_mem_singleton]
          exact fun h => hlast h.2
        rw [if_neg hlast, if_neg hlast, if_neg fun h => hall h.2]

/-- A flag and its value change nothing. -/
theorem even_flagsAtEnd (first : CString) (before : List CString) :
    Even (flagsAtEnd (socketFlag :: first :: before)) ↔ Even (flagsAtEnd before) := by
  rw [flagsAtEnd_cons, flagsAtEnd_cons]
  by_cases hall : first = socketFlag ∧ ∀ other ∈ before, other = socketFlag
  · have hmore : socketFlag = socketFlag ∧ ∀ other ∈ first :: before, other = socketFlag :=
      ⟨rfl, List.forall_mem_cons.mpr hall⟩
    rw [if_pos hall, if_pos hmore, Nat.add_assoc, Nat.even_add]
    exact iff_true_right (by decide)
  · have hless : ¬ (socketFlag = socketFlag ∧ ∀ other ∈ first :: before, other = socketFlag) :=
      fun h => hall (List.forall_mem_cons.mp h.2)
    rw [if_neg hall, if_neg hless, Nat.add_zero]

/-- Without a flag in front of an argument none is named. -/
theorem not_isSocketArgument (h : socketFlag ∉ argv.dropLast) : ¬ IsSocketArgument argv value := by
  rintro ⟨before, after, rfl, -, -⟩
  refine h ?_
  rw [List.dropLast_append_of_ne_nil (List.cons_ne_nil _ _),
    List.dropLast_cons_of_ne_nil (List.cons_ne_nil _ _)]
  simp

/-- A flag and its value, in front. -/
theorem isSocketArgument_flag {first : CString} {rest : List CString} :
    IsSocketArgument (socketFlag :: first :: rest) value ↔
      IsSocketArgument rest value ∨ value = first ∧ socketFlag ∉ rest.dropLast := by
  constructor
  · rintro ⟨before, after, hargv, heven, hnone⟩
    match before with
    | [] =>
        obtain ⟨rfl, rfl⟩ : first = value ∧ rest = after := by simpa using hargv
        exact Or.inr ⟨rfl, hnone⟩
    | [flag] =>
        -- `first` is the flag, and the value of the one before it
        obtain ⟨rfl, -⟩ : socketFlag = flag ∧ _ := by simpa using hargv
        exact absurd heven (by decide)
    | flag :: other :: before =>
        obtain ⟨rfl, rfl, hrest⟩ : socketFlag = flag ∧ first = other ∧ _ := by simpa using hargv
        exact Or.inl ⟨before, after, hrest, (even_flagsAtEnd first before).mp heven, hnone⟩
  · rintro (⟨before, after, rfl, heven, hnone⟩ | ⟨rfl, hnone⟩)
    · exact ⟨socketFlag :: first :: before, after, rfl, (even_flagsAtEnd first before).mpr heven,
        hnone⟩
    · exact ⟨[], rest, rfl, by decide, hnone⟩

/-- Something else in front. -/
theorem isSocketArgument_cons {argument : CString} (h : argument ≠ socketFlag)
    {rest : List CString} :
    IsSocketArgument (argument :: rest) value ↔ IsSocketArgument rest value := by
  have hflags : ∀ before, flagsAtEnd (argument :: before) = flagsAtEnd before := by
    intro before
    rw [flagsAtEnd_cons, if_neg fun hall => h hall.1, Nat.add_zero]
  constructor
  · rintro ⟨before, after, hargv, heven, hnone⟩
    cases before with
    | nil => exact absurd (List.cons.inj hargv).1 h
    | cons first before =>
        obtain ⟨rfl, rfl⟩ := List.cons.inj hargv
        exact ⟨before, after, rfl, hflags before ▸ heven, hnone⟩
  · rintro ⟨before, after, rfl, heven, hnone⟩
    exact ⟨argument :: before, after, rfl, (hflags before).symm ▸ heven, hnone⟩

/-- **What the loop selects**: the value that is named, and else what was there. -/
theorem selectPath_spec (socketPath : CString) (argv : List CString) :
    IsSocketArgument argv (selectPath socketPath argv) ∨
      selectPath socketPath argv = socketPath ∧ socketFlag ∉ argv.dropLast := by
  fun_induction selectPath socketPath argv with
  | case1 socketPath value rest ih =>
      refine Or.inl (isSocketArgument_flag.mpr ?_)
      exact ih.imp_right fun h => ⟨h.1, h.2⟩
  | case2 socketPath argument value rest hflag ih =>
      refine ih.imp (isSocketArgument_cons hflag).mpr fun h => ⟨h.1, ?_⟩
      rw [List.dropLast_cons_of_ne_nil (List.cons_ne_nil _ _)]
      simpa [Ne.symm hflag] using h.2
  | case3 argv socketPath hshort =>
      refine Or.inr ⟨rfl, ?_⟩
      cases argv with
      | nil => simp
      | cons argument rest =>
          cases rest with
          | nil => simp
          | cons value rest => exact absurd rfl (hshort argument value rest)

/-- At most one value is named. -/
theorem selectPath_eq (h : IsSocketArgument argv value) (socketPath : CString) :
    selectPath socketPath argv = value := by
  fun_induction selectPath socketPath argv with
  | case1 socketPath first rest ih =>
      rcases isSocketArgument_flag.mp h with h | ⟨rfl, hnone⟩
      · exact ih h
      · rcases selectPath_spec value rest with hnamed | ⟨hkept, -⟩
        · exact absurd hnamed (not_isSocketArgument hnone)
        · exact hkept
  | case2 socketPath argument first rest hflag ih => exact ih ((isSocketArgument_cons hflag).mp h)
  | case3 argv socketPath hshort =>
      obtain ⟨before, after, hargv, -, -⟩ := h
      match before with
      | [] => exact absurd hargv (hshort _ _ _)
      | [_] => exact absurd hargv (hshort _ _ _)
      | _ :: _ :: _ => exact absurd hargv (hshort _ _ _)

/-! ## A call -/

/-- The call writes, reads or closes. -/
def SocketCall.Exchanges (fd : ℕ) (call : SocketCall) : Prop :=
  (∃ taken, call = .writeAll fd taken) ∨ ∃ line, call = .readLine fd line

theorem SocketCall.Exchanges.use {fd : ℕ} {call : SocketCall} (h : call.Exchanges fd) :
    call.on = some fd ∧ call ≠ .close fd := by
  rcases h with ⟨taken, rfl⟩ | ⟨line, rfl⟩
  · exact ⟨rfl, nofun⟩
  · exact ⟨rfl, nofun⟩

theorem SocketCall.Exchanges.ne_connect {fd other : ℕ} {address : Bytes} {call : SocketCall}
    (h : call.Exchanges fd) : call ≠ .connect other address := by
  rcases h with ⟨taken, rfl⟩ | ⟨line, rfl⟩
  · exact nofun
  · exact nofun

/-- What is exchanged is what `pamSmAuthenticate` exchanges, and then the descriptor is closed. -/
structure ConverseSpec (fd : ℕ) (expected : PamRun) (calls : List SocketCall)
    (result : Option PamResult) : Prop where
  returned : expected.result = result
  sent : expected.sent = sentBy calls
  closed : result ≠ none → ∃ exchanged, calls = exchanged ++ [.close fd] ∧
    ∀ call ∈ exchanged, call.Exchanges fd

theorem converse_spec (fd : ℕ) (peer : Peer) (username : CString) :
    ConverseSpec fd
      (pamSmAuthenticate ⟨some username, true, peer.connect, peer.poller, peer.writes, peer.reads⟩)
      (converse fd peer username).1 (converse fd peer username).2 := by
  have hclosed : ConverseSpec fd ⟨[], some .authErr⟩ [.close fd] (some .authErr) :=
    ⟨rfl, rfl, fun _ => ⟨[], rfl, by simp⟩⟩
  unfold converse pamSmAuthenticate
  cases hconnect : peer.connect with
  | false => exact hclosed
  | true =>
      by_cases hlen : (request username).length < requestCapacity
      · simp only [hlen, Bool.true_and, decide_true, if_true]
        generalize writeAll (request username) 0 peer.poller peer.writes = run
        cases hresult : run.result with
        | none => exact ⟨rfl, by simp [sentBy], fun h => absurd rfl h⟩
        | some written =>
            cases written with
            | false =>
                refine ⟨rfl, by simp [sentBy], fun _ => ⟨[.writeAll fd run.sent], rfl, ?_⟩⟩
                exact List.forall_mem_singleton.mpr (Or.inl ⟨_, rfl⟩)
            | true =>
                simp only
                generalize readLine responseCapacity [] run.poller peer.reads = line
                rcases line with _ | _ | response
                · exact ⟨rfl, by simp [sentBy], fun h => absurd rfl h⟩
                · refine ⟨rfl, by simp [sentBy], fun _ =>
                    ⟨[.writeAll fd run.sent, .readLine fd none], rfl, ?_⟩⟩
                  exact List.forall_mem_cons.mpr ⟨Or.inl ⟨_, rfl⟩,
                    List.forall_mem_singleton.mpr (Or.inr ⟨_, rfl⟩)⟩
                · refine ⟨rfl, by simp [sentBy], fun _ =>
                    ⟨[.writeAll fd run.sent, .readLine fd (some response)], rfl, ?_⟩⟩
                  exact List.forall_mem_cons.mpr ⟨Or.inl ⟨_, rfl⟩,
                    List.forall_mem_singleton.mpr (Or.inr ⟨_, rfl⟩)⟩
      · simpa only [hlen, Bool.true_and, decide_false, Bool.false_eq_true, if_true,
          if_false] using hclosed

/-- **What a call does**: it takes its path from the variable and the arguments, and is served
there. -/
theorem authenticate_spec {env : ProcessEnv} {selected : CString} {calls : List SocketCall}
    {result : PamResult}
    (h : authenticate socketPath argv env = (selected, calls, some result)) :
    selected = (if env.username.isSome then selectPath socketPath argv else socketPath) ∧
      ServedBy selected env calls result.code := by
  unfold authenticate at h
  cases hname : env.username with
  | none =>
      simp only [hname, Prod.mk.injEq, Option.some.injEq] at h
      obtain ⟨rfl, rfl, rfl⟩ := h
      refine ⟨rfl, ?_, ?_, by simp, .nothing⟩
      · simp [pamSmAuthenticate, ProcessEnv.at, hname]
      · simp [pamSmAuthenticate, ProcessEnv.at, hname, sentBy]
  | some username =>
      simp only [hname] at h
      cases hfd : env.descriptor with
      | none =>
          simp only [hfd, Prod.mk.injEq, Option.some.injEq] at h
          obtain ⟨rfl, rfl, rfl⟩ := h
          refine ⟨rfl, ?_, ?_, by simp, .unopened⟩
          · simp [pamSmAuthenticate, ProcessEnv.at, hname, hfd]
          · simp [pamSmAuthenticate, ProcessEnv.at, hname, hfd, sentBy]
      | some fd =>
          simp only [hfd, Prod.mk.injEq] at h
          obtain ⟨rfl, rfl, hresult⟩ := h
          have hspec := converse_spec fd (env.peer (sunPath (selectPath socketPath argv))) username
          have hat : env.at (sunPath (selectPath socketPath argv)) =
              ⟨some username, true, (env.peer (sunPath (selectPath socketPath argv))).connect,
                (env.peer (sunPath (selectPath socketPath argv))).poller,
                (env.peer (sunPath (selectPath socketPath argv))).writes,
                (env.peer (sunPath (selectPath socketPath argv))).reads⟩ := by
            simp [ProcessEnv.at, hname, hfd]
          obtain ⟨exchanged, hcalls, hexchanged⟩ := hspec.closed (by simp [hresult])
          refine ⟨rfl, ?_, ?_, ?_, ?_⟩
          · rw [hat, hspec.returned, hresult]
            rfl
          · rw [hat, hspec.sent]
            simp [sentBy]
          · intro other address hmem
            rw [hcalls] at hmem
            rcases List.mem_cons.mp hmem with heq | hmem
            · cases heq
            · rcases List.mem_cons.mp hmem with heq | hmem
              · cases heq
                rfl
              · rcases List.mem_append.mp hmem with hmem | hmem
                · exact absurd rfl (hexchanged _ hmem).ne_connect
                · simp at hmem
          · have huse : ∀ call ∈ SocketCall.connect fd (sunPath (selectPath socketPath argv)) ::
                exchanged, call.on = some fd ∧ call ≠ .close fd :=
              List.forall_mem_cons.mpr ⟨⟨rfl, by simp⟩, fun call hmem => (hexchanged call hmem).use⟩
            rw [hcalls, ← List.cons_append, ← List.cons_append]
            exact .closed huse

/-! ## The runs -/

variable {x : ProcessEntry} {tr : List ProcessEntry} {s : CString}

theorem does_authenticate (hdoes : processMachine.Does x) {env : ProcessEnv}
    (hact : x.act = .authenticate argv env) :
    x.post = (if env.username.isSome then selectPath x.pre argv else x.pre) ∧
      ServedBy x.post env x.out.1 x.out.2 := by
  obtain ⟨pre, act, ⟨calls, code⟩, post⟩ := x
  subst hact
  simp only [Machine.Does, processMachine, Option.map_eq_some_iff, Prod.mk.injEq] at hdoes
  obtain ⟨result, hresult, rfl, rfl, rfl⟩ := hdoes
  exact authenticate_spec (Prod.ext rfl (Prod.ext rfl hresult))

/-- A step that names a socket selects it. -/
theorem post_of_names (hdoes : processMachine.Does x) (h : Names x path) : x.post = path := by
  obtain ⟨argv, env, hact, huser, hargument⟩ := h
  rw [(does_authenticate hdoes hact).1, if_pos huser, selectPath_eq hargument]

/-- Another step leaves the variable alone. -/
theorem post_of_not_names (hdoes : processMachine.Does x) (h : ∀ path, ¬ Names x path) :
    x.post = x.pre := by
  cases hact : x.act with
  | authenticate argv env =>
      rw [(does_authenticate hdoes hact).1]
      split_ifs with huser
      · rcases selectPath_spec x.pre argv with hargument | hkept
        · exact absurd ⟨argv, env, hact, huser, hargument⟩ (h _)
        · exact hkept.1
      · rfl
  | setcred | acctMgmt | openSession | closeSession | chauthtok =>
      simp only [Machine.Does, processMachine, hact, Option.some.injEq, Prod.mk.injEq] at hdoes
      exact hdoes.1.symm

theorem selects_of_names (h : Names x path) (honly : ∀ other, Names x other → other = path)
    {other : CString} : Selects (tr ++ [x]) other ↔ other = path := by
  constructor
  · rintro (⟨before, y, after, htr, hnames, hafter⟩ | ⟨hnone, -⟩)
    · rcases snoc_split htr with ⟨rfl, rfl, rfl⟩ | ⟨rest, rfl, rfl⟩
      · exact honly other hnames
      · exact absurd h (hafter x (by simp) path)
    · exact absurd h (hnone x (by simp) path)
  · rintro rfl
    exact Or.inl ⟨tr, x, [], rfl, h, by simp⟩

theorem selects_of_not_names (h : ∀ path, ¬ Names x path) {other : CString} :
    Selects (tr ++ [x]) other ↔ Selects tr other := by
  constructor
  · rintro (⟨before, y, after, htr, hnames, hafter⟩ | ⟨hnone, hother⟩)
    · rcases snoc_split htr with ⟨rfl, rfl, rfl⟩ | ⟨rest, rfl, rfl⟩
      · exact absurd hnames (h other)
      · exact Or.inl ⟨before, y, rest, rfl, hnames, fun z hz => hafter z (by simp [hz])⟩
    · exact Or.inr ⟨fun z hz => hnone z (by simp [hz]), hother⟩
  · rintro (⟨before, y, after, rfl, hnames, hafter⟩ | ⟨hnone, hother⟩)
    · refine Or.inl ⟨before, y, after ++ [x], by simp, hnames, ?_⟩
      exact List.forall_mem_append.mpr ⟨hafter, List.forall_mem_singleton.mpr h⟩
    · exact Or.inr ⟨List.forall_mem_append.mpr ⟨hnone, List.forall_mem_singleton.mpr h⟩, hother⟩

/-- The variable is what the history selects. -/
theorem selects_run (hrun : Run processMachine defaultPath tr s) :
    ∀ path, Selects tr path ↔ path = s := by
  refine hrun.history (P := fun tr s => ∀ path, Selects tr path ↔ path = s) ?_ ?_
  · intro path
    exact ⟨fun h => by simpa [Selects] using h, fun h => Or.inr ⟨by simp, h⟩⟩
  · intro tr x _ hdoes ih path
    by_cases hnames : ∃ named, Names x named
    · obtain ⟨named, hnamed⟩ := hnames
      have honly : ∀ other, Names x other → other = named := fun other h =>
        (post_of_names hdoes h).symm.trans (post_of_names hdoes hnamed)
      rw [selects_of_names hnamed honly, post_of_names hdoes hnamed]
    · have hnone : ∀ named, ¬ Names x named := not_exists.mp hnames
      rw [selects_of_not_names hnone, ih path, post_of_not_names hdoes hnone]

/-- **The socket of a call** is the one that the arguments of this call or the latest one
before name; the call is served there, and leaves no descriptor open. -/
theorem socket_selected (hrun : Run processMachine defaultPath tr s) :
    Along (fun pre x => (∀ path, Selects (pre ++ [x]) path ↔ path = x.post) ∧
      ∀ argv env, x.act = .authenticate argv env →
        ServedBy x.post env x.out.1 x.out.2) tr := by
  rintro pre x post rfl
  obtain ⟨hpre, hdoes⟩ := hrun.split
  exact ⟨selects_run (hpre.snoc hdoes), fun argv env hact => (does_authenticate hdoes hact).2⟩

def otherPath : CString := ⟨ascii "/run/other.sock", by decide⟩

/-- The daemon is at the other path, and nothing at the default one. -/
def movedEnv : ProcessEnv where
  username := some plainName
  descriptor := some 5
  peer address :=
    let env := sampleEnv plainName
    ⟨address = sunPath otherPath, env.poller, env.writes, env.reads⟩

/-- Two modules of a stack, of which the first has an argument. -/
def stackTrace : List ProcessEntry :=
  processMachine.trace defaultPath
    [.authenticate [socketFlag, otherPath] movedEnv, .authenticate [] movedEnv]

theorem stackTrace_calls (socketPath : CString) (argv : List CString)
    (h : ((authenticate socketPath argv movedEnv).1,
      (authenticate socketPath argv movedEnv).2.2) = (otherPath, some .success)) :
    ∃ calls, processMachine.step socketPath (.authenticate argv movedEnv) =
      some (otherPath, calls, .success) := by
  obtain ⟨hpath, hresult⟩ := Prod.mk.inj h
  exact ⟨(authenticate socketPath argv movedEnv).2.1, by simp [processMachine, hpath, hresult,
    PamResult.code]⟩

theorem socket_selected_sample :
    ∃ calls, Selects stackTrace otherPath ∧ ServedBy otherPath movedEnv calls .success := by
  obtain ⟨first, hfirst⟩ := stackTrace_calls defaultPath [socketFlag, otherPath] (by decide +kernel)
  obtain ⟨second, hsecond⟩ := stackTrace_calls otherPath [] (by decide +kernel)
  have htrace : stackTrace = [⟨defaultPath, .authenticate [socketFlag, otherPath] movedEnv,
      (first, .success), otherPath⟩] ++
        ⟨otherPath, .authenticate [] movedEnv, (second, .success), otherPath⟩ :: [] := by
    simp [stackTrace, Machine.trace, hfirst, hsecond]
  obtain ⟨hselects, hserved⟩ := socket_selected (Run.trace _ _ _) _ _ _ htrace
  refine ⟨second, ?_, hserved [] movedEnv rfl⟩
  rw [htrace]
  exact (hselects otherPath).mpr rfl

end OpenBioUnlock.Pam

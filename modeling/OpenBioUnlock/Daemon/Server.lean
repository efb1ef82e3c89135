import Mathlib.Data.List.AList
import OpenBioUnlock.Daemon.Store
import OpenBioUnlock.Machine.Run

/-!
# The daemon

`daemon/src/server.rs`.  A connection is served by a task of its own,
`handle_stream`, which takes one request after the other.  The tasks share the
map of pending authentications, behind a lock, and the key store of the vault.

A step of the daemon is what one task does between two points at which others can
run: from one `.await` or access of the vault to the next.  `Phase` lists these
points for each request, with the local variables that are live there, and
`DaemonState.step` is the step function.  All a task reads from outside — the request,
random draws, the clock, whether the vault answers, which entry a map iterates
first — is in the action.

An `Authorize` waits on a `Notify` of its own.  The map entry holds the same
`Notify`, so that a `Verify` can wake the waiter; `notify_waiters` reaches the
`Notified` future only if it has been created by then (`Waiter`).
-/

namespace OpenBioUnlock.Daemon

open Codec Runs

/-! ## Requests and responses -/

structure VerifyRequest where
  challengeId : ByteString
  deviceId : ByteString
  nonce : ByteString
  timestamp : UInt64
  signature : ByteString
  deriving DecidableEq

inductive Request where
  | pair (deviceId publicKey pairingCode : ByteString)
  | authorize (user : ByteString)
  | challenge
  | verify (v : VerifyRequest)
  deriving DecidableEq

inductive Response where
  | paired (accepted : Bool)
  | challenge (challengeId nonce : ByteString) (timestamp : UInt64)
  | authorized (authorized : Bool)
  | error (message : String)
  deriving DecidableEq

/-! ## The shared state -/

structure PendingAuth where
  nonce : ByteArr 32
  timestamp : UInt64
  authorized : Bool
  /-- the `Notify` of the task that waits, by its number in the order of allocation -/
  notify : ℕ
  deriving DecidableEq

abbrev SharedState := AList fun _ : ByteString => PendingAuth

/-- The `Notified` future of a `Notify`. -/
inductive Waiter where
  /-- none has been created, or it has been consumed or dropped -/
  | absent
  | waiting
  | notified
  deriving DecidableEq

/-- `Notify::notify_waiters`: it wakes a future that exists, and keeps nothing for
one to come. -/
def Waiter.notifyWaiters : Waiter → Waiter
  | .waiting => .notified
  | w => w

/-- A connection, and with it the task that serves it. -/
abbrev Conn := ℕ

/-- Where the task of a connection is suspended. -/
inductive Phase where
  /-- before the next line -/
  | idle
  /-- in `add_public_key`, before `get_password` -/
  | pairLoad (key : ByteArr 32) (pairingCode : ByteString)
  /-- in `add_public_key`, before `set_password`, with the keys read -/
  | pairStore (key : ByteArr 32) (pairingCode : ByteString) (keys : List (ByteArr 32))
  /-- before the lock under which the entry is inserted -/
  | authorizeInsert (challengeId : ByteString) (pending : PendingAuth)
  /-- before `notify.notified()` -/
  | authorizeListen (challengeId : ByteString) (notify : ℕ)
  /-- at `.await` of the notified future, or of the lock after it -/
  | authorizeWait (challengeId : ByteString) (notify : ℕ)
  /-- before the lock under which the entry is removed -/
  | authorizeRemove (challengeId : ByteString) (notify : ℕ) (authorized : Bool)
  /-- before the lock -/
  | challenge
  /-- in `load_public_keys`, before `get_password` -/
  | verifyLoad (v : VerifyRequest)
  /-- before the signature is checked -/
  | verifyCheck (v : VerifyRequest) (keys : List (ByteArr 32))
  /-- before the lock -/
  | verifyApprove (v : VerifyRequest)
  deriving DecidableEq

structure Handler where
  /-- `KeyStore::open()` succeeded for the connection -/
  store : Bool
  phase : Phase
  deriving DecidableEq

structure DaemonState where
  /-- the text the vault holds -/
  vault : Option ByteString
  pending : SharedState
  /-- the number of `Notify` objects allocated so far, and their futures -/
  notifies : ℕ
  waiters : ℕ → Waiter
  handlers : Conn → Option Handler

/-- The daemon as started, over a vault. -/
def DaemonState.initial (vault : Option ByteString) : DaemonState where
  vault := vault
  pending := ∅
  notifies := 0
  waiters := fun _ => .absent
  handlers := fun _ => none

/-! ## What a task does -/

/-- What the task of an `Authorize` reads when it starts. -/
structure Draws where
  nonce : Except String (ByteArr 32)
  challengeId : Option (ByteArr 32)
  now : UInt64

inductive Act where
  /-- a connection is accepted, and its key store opened -/
  | accept (store : Bool)
  /-- the peer is gone: no further line, or a failed write -/
  | close
  /-- a line, as `serde_json` reads it -/
  | receive (line : Except String Request) (draws : Draws)
  | getPassword (ok : Bool)
  | setPassword (ok : Bool)
  | insert
  | listen
  | check
  | timeout
  | remove
  /-- the entry at `index` is the first one the map iterates -/
  | iterate (index : ℕ)
  /-- `now` is read once for each key looked at -/
  | checkSignatures (now : ℕ → UInt64)
  | approve

def pairingCodeRequired : String := "pairing code is required"

def publicKeyLength : String := "public key must be 32 bytes"

def pairingUnavailable : String := "pairing key is invalid or vault is unavailable"

def nothingPending : String := "no workstation authentication request is pending"

namespace DaemonState

/-- The task of `conn` goes on to `phase`. -/
def goto (s : DaemonState) (conn : Conn) (store : Bool) (phase : Phase) : DaemonState :=
  { s with handlers := Function.update s.handlers conn (some ⟨store, phase⟩) }

/-- The task of `conn` answers and is ready for the next line. -/
def respond (s : DaemonState) (conn : Conn) (store : Bool) (response : Response) :
    DaemonState × Option Response :=
  (s.goto conn store .idle, some response)

/-- The task of `conn` goes on without answering. -/
def proceed (s : DaemonState) (conn : Conn) (store : Bool) (phase : Phase) :
    DaemonState × Option Response :=
  (s.goto conn store phase, none)

/-- The `Pair` arm up to `add_public_key`. -/
def receivePair (s : DaemonState) (conn : Conn) (store : Bool) (publicKey pairingCode : ByteString) :
    DaemonState × Option Response :=
  if pairingCode = [] then s.respond conn store (.error pairingCodeRequired)
  else
    match store, hexDecode publicKey with
    | true, some bytes =>
        match ByteArr.ofSlice? 32 bytes with
        | some key => s.proceed conn store (.pairLoad key pairingCode)
        | none => s.respond conn store (.error publicKeyLength)
    | _, _ => s.respond conn store (.error pairingUnavailable)

/-- The `Authorize` arm up to the first lock: a failing draw of the challenge id
leaves it all zero. -/
def receiveAuthorize (s : DaemonState) (conn : Conn) (store : Bool) (draws : Draws) :
    DaemonState × Option Response :=
  match draws.nonce with
  | .error error => s.respond conn store (.error (CryptoError.random error).toString)
  | .ok nonce =>
      let challengeId := hexEncode ((draws.challengeId.map Subtype.val).getD
        (List.replicate 32 0))
      let pending : PendingAuth := ⟨nonce, draws.now, false, s.notifies⟩
      { s with notifies := s.notifies + 1 }.proceed conn store
        (.authorizeInsert challengeId pending)

def receive (s : DaemonState) (conn : Conn) (store : Bool) (line : Except String Request)
    (draws : Draws) : DaemonState × Option Response :=
  match line with
  | .error error => s.respond conn store (.error ("invalid request: " ++ error))
  | .ok (.pair _ publicKey pairingCode) => s.receivePair conn store publicKey pairingCode
  | .ok (.authorize _) => s.receiveAuthorize conn store draws
  | .ok .challenge => s.proceed conn store .challenge
  | .ok (.verify v) => s.proceed conn store (.verifyLoad v)

/-- What `get_password` gives. -/
def getPassword (s : DaemonState) (ok : Bool) : Option ByteString :=
  if ok then s.vault else none

/-- The keys a `Verify` looks at: none, if the store or its text is unusable. -/
def verifyKeys (s : DaemonState) (store ok : Bool) : List (ByteArr 32) :=
  if store then (loadPublicKeys (s.getPassword ok)).toOption.getD [] else []

/-- The entry of `challengeId` is there and authorized. -/
def isAuthorized (s : DaemonState) (challengeId : ByteString) : Bool :=
  ((s.pending.lookup challengeId).map PendingAuth.authorized).getD false

/-- The request matches the entry, which is not authorized yet. -/
def matchesEntry (v : VerifyRequest) (entry : PendingAuth) : Bool :=
  entry.nonce.1 = (hexDecode v.nonce).getD [] && entry.timestamp = v.timestamp &&
    !entry.authorized

/-- The state in which the entry is authorized and its waiter notified. -/
def approved (s : DaemonState) (challengeId : ByteString) (entry : PendingAuth) : DaemonState :=
  { s with
    pending := s.pending.insert challengeId { entry with authorized := true }
    waiters := Function.update s.waiters entry.notify
      (s.waiters entry.notify).notifyWaiters }

end DaemonState

variable (dalek : Dalek)

/-- Some key the `Verify` loaded verifies its signature, each at its own reading of
the clock. -/
def signatureOk (v : VerifyRequest) (keys : List (ByteArr 32)) (now : ℕ → UInt64) : Bool :=
  keys.zipIdx.any fun p =>
    (verifySignature dalek p.1.1 ((hexDecode v.nonce).getD []) v.timestamp
      ((hexDecode v.signature).getD []) (now p.2)).toBool

/-- A step of the task of `conn`. -/
def DaemonState.step (s : DaemonState) (conn : Conn) (act : Act) : Option (DaemonState × Option Response) :=
  match s.handlers conn, act with
  | none, .accept store => some (s.proceed conn store .idle)
  | some ⟨_, .idle⟩, .close =>
      some ({ s with handlers := Function.update s.handlers conn none }, none)
  | some ⟨store, .idle⟩, .receive line draws => some (s.receive conn store line draws)
  | some ⟨store, .pairLoad key pairingCode⟩, .getPassword ok =>
      match loadPublicKeys (s.getPassword ok) with
      | .ok keys => some (s.proceed conn store (.pairStore key pairingCode keys))
      | .error _ => some (s.respond conn store (.paired false))
  | some ⟨store, .pairStore key _ keys⟩, .setPassword ok =>
      if ok then
        some ({ s with vault := some (encodeKeys (withKey keys key)) }.respond conn store
          (.paired true))
      else some (s.respond conn store (.paired false))
  | some ⟨store, .authorizeInsert challengeId pending⟩, .insert =>
      some ({ s with pending := s.pending.insert challengeId pending }.proceed conn store
        (.authorizeListen challengeId pending.notify))
  | some ⟨store, .authorizeListen challengeId notify⟩, .listen =>
      some ({ s with waiters := Function.update s.waiters notify .waiting }.proceed conn store
        (.authorizeWait challengeId notify))
  | some ⟨store, .authorizeWait challengeId notify⟩, .check =>
      -- the future is ready only when it was notified
      if s.waiters notify = .notified then
        let consumed := { s with waiters := Function.update s.waiters notify .absent }
        if s.isAuthorized challengeId then
          some (consumed.proceed conn store (.authorizeRemove challengeId notify true))
        else some (consumed.proceed conn store (.authorizeListen challengeId notify))
      else none
  | some ⟨store, .authorizeWait challengeId notify⟩, .timeout =>
      some ({ s with waiters := Function.update s.waiters notify .absent }.proceed conn store
        (.authorizeRemove challengeId notify false))
  | some ⟨store, .authorizeRemove challengeId _ authorized⟩, .remove =>
      some ({ s with pending := s.pending.erase challengeId }.respond conn store
        (.authorized authorized))
  | some ⟨store, .challenge⟩, .iterate index =>
      if s.pending.entries = [] then some (s.respond conn store (.error nothingPending))
      else
        s.pending.entries[index]?.map fun entry =>
          s.respond conn store
            (.challenge entry.1 (hexEncode entry.2.nonce.1) entry.2.timestamp)
  | some ⟨store, .verifyLoad v⟩, .getPassword ok =>
      some (s.proceed conn store (.verifyCheck v (s.verifyKeys store ok)))
  | some ⟨store, .verifyCheck v keys⟩, .checkSignatures now =>
      if signatureOk dalek v keys now then some (s.proceed conn store (.verifyApprove v))
      else some (s.respond conn store (.authorized false))
  | some ⟨store, .verifyApprove v⟩, .approve =>
      match s.pending.lookup v.challengeId with
      | none => some (s.respond conn store (.authorized false))
      | some entry =>
          if DaemonState.matchesEntry v entry then
            some ((s.approved v.challengeId entry).respond conn store (.authorized true))
          else some (s.respond conn store (.authorized false))
  | _, _ => none

/-- The daemon, its tasks interleaved in any way. -/
def daemonMachine : Machine DaemonState (Conn × Act) (Option Response) where
  step s a := s.step dalek a.1 a.2

abbrev DaemonEntry := Entry DaemonState (Conn × Act) (Option Response)

end OpenBioUnlock.Daemon

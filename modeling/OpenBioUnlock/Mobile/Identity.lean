import OpenBioUnlock.Machine.Run
import OpenBioUnlock.Mobile.CryptoService

/-!
# The phone's identity

`initialize` of `crypto_service.dart`, and the four methods that wait for it.  The
phone has two key pairs, and `initialize` reads their seeds from the secure
storage, one after the other, or generates what is not there.  It begins by
returning at once if `_keyPair` is set.

A call is a task.  Its phase is the `await` it stands at, with the local variables
that are still needed; what happens between two awaits is one step.  A read or a
write takes effect when the storage plugin carries it out, some time before the
task goes on.  `identityMachine` takes the steps of any number of tasks in any
order.
-/

namespace OpenBioUnlock.Mobile

open Desktop (Bytes)
open Runs

/-! ## State -/

/-- The two algorithms, with a seed in the storage for each. -/
inductive Algorithm where
  | ed25519
  | x25519
  deriving DecidableEq

inductive Method where
  | publicKey
  | exchangePublicKey
  | signChallenge (nonce : Uint8List) (timestamp : Int64)
  | establishSession (workstationKey : DString)

/-- What a task awaits. -/
inductive Phase where
  /-- `_storage.read`, and the same with the value on its way -/
  | reading (a : Algorithm)
  | read (a : Algorithm) (encodedSeed : Option DString)
  /-- `newKeyPair` -/
  | generating (a : Algorithm)
  /-- `extractPrivateKeyBytes` -/
  | extracting (a : Algorithm) (pair : Bytes 32)
  /-- `_storage.write`, and the same with the seed written -/
  | writing (a : Algorithm) (pair : Bytes 32)
  | written (a : Algorithm) (pair : Bytes 32)
  /-- `newKeyPairFromSeed` -/
  | rebuilding (a : Algorithm) (pair : Bytes 32)
  /-- `initialize`, which has returned -/
  | initialized
  /-- `authenticate` -/
  | authenticating
  /-- `extractPublicKey` -/
  | extractingKey (a : Algorithm) (pair : Bytes 32)
  /-- `sign` -/
  | signing (pair : Bytes 32) (payload : Uint8List)
  /-- `sharedSecretKey` -/
  | agreeing (pair : Bytes 32) (remote : Bytes 32)

structure Task where
  method : Method
  phase : Phase

/-- The service, the seeds in the storage and the calls that have not completed. -/
structure Identity where
  service : CryptoService
  storage : Algorithm → Option DString
  tasks : ℕ → Option Task

/-- A phone whose application has just started. -/
def Identity.started (storage : Algorithm → Option DString) : Identity :=
  ⟨⟨none, none, none⟩, storage, fun _ => none⟩

/-- The result of a call. -/
inductive Answer where
  | publicKey (a : Algorithm) (key : Bytes 32)
  | signature (payload signature : Uint8List)
  | session
  | thrown (e : DartError)
  deriving DecidableEq

structure IdentityOutput where
  /-- `initialize` returns normally in this step -/
  initialized : Bool
  answer : Option Answer

/-- What a caller does: it calls a method.  What the plugin does: it carries out the read
or write a task awaits, or fails.  What the event loop does: it resumes a task. -/
inductive IdentityEvent where
  | call (method : Method)
  | storage
  | storageFails
  /-- `fresh` is the seed of a key pair that is generated -/
  | resume (fresh : Bytes 32)
  /-- the result of `authenticate`; `none` if it throws -/
  | authenticate (approved : Option Bool)

/-! ## Fields -/

/-- `_keyPair` and `_exchangeKeyPair`. -/
def CryptoService.pairOf (service : CryptoService) : Algorithm → Option (Bytes 32)
  | .ed25519 => service.keyPair
  | .x25519 => service.exchangeKeyPair

def CryptoService.withPair (service : CryptoService) (a : Algorithm) (pair : Bytes 32) :
    CryptoService :=
  match a with
  | .ed25519 => { service with keyPair := some pair }
  | .x25519 => { service with exchangeKeyPair := some pair }

/-- The seed that a stored text encodes. -/
def seedOf (a : Algorithm) (encodedSeed : DString) : Except DartError (Bytes 32) := do
  let seed ← decodeHex encodedSeed
  if h : seed.length = 32 then .ok ⟨seed, h⟩
  else
    .error (.stateError (match a with
      | .ed25519 => "stored signing key has invalid length"
      | .x25519 => "stored exchange key has invalid length"))

/-- The key pair that the storage encodes. -/
def storedPair (storage : Algorithm → Option DString) (a : Algorithm) : Option (Bytes 32) :=
  (storage a).bind fun encodedSeed => (seedOf a encodedSeed).toOption

namespace Identity

variable (s : Identity) (id : ℕ)

def goto (method : Method) (phase : Phase) : Identity :=
  { s with tasks := Function.update s.tasks id (some ⟨method, phase⟩) }

def finish : Identity :=
  { s with tasks := Function.update s.tasks id none }

def withPair (a : Algorithm) (pair : Bytes 32) : Identity :=
  { s with service := s.service.withPair a pair }

def store (a : Algorithm) (encodedSeed : DString) : Identity :=
  { s with storage := Function.update s.storage a (some encodedSeed) }

/-- The task goes on to its next await. -/
def awaits (method : Method) (phase : Phase) : Option (Identity × IdentityOutput) :=
  some (s.goto id method phase, ⟨false, none⟩)

def answers (answer : Answer) : Option (Identity × IdentityOutput) :=
  some (s.finish id, ⟨false, some answer⟩)

def throws (e : DartError) : Option (Identity × IdentityOutput) :=
  s.answers id (.thrown e)

/-- `initialize` returns. -/
def returns (method : Method) : Option (Identity × IdentityOutput) :=
  some (s.goto id method .initialized, ⟨true, none⟩)

/-! ## Steps -/

/-- What follows a key pair of `initialize`. -/
def next (method : Method) : Algorithm → Option (Identity × IdentityOutput)
  | .ed25519 => s.awaits id method (.reading .x25519)
  | .x25519 => s.returns id method

/-- What a method does once `initialize` has returned. -/
def proceed : Method → Option (Identity × IdentityOutput)
  | .publicKey =>
      match s.service.keyPair with
      | none => s.throws id .nullCheck
      | some pair => s.awaits id .publicKey (.extractingKey .ed25519 pair)
  | .exchangePublicKey =>
      match s.service.exchangeKeyPair with
      | none => s.throws id .nullCheck
      | some pair => s.awaits id .exchangePublicKey (.extractingKey .x25519 pair)
  | .signChallenge nonce timestamp => s.awaits id (.signChallenge nonce timestamp) .authenticating
  | .establishSession workstationKey =>
      match remoteKey workstationKey with
      | .error e => s.throws id e
      | .ok remote =>
          match s.service.exchangeKeyPair with
          | none => s.throws id .nullCheck
          | some pair => s.awaits id (.establishSession workstationKey) (.agreeing pair remote)

/-- `initialize`, up to its first await. -/
def initializePairs (method : Method) : Option (Identity × IdentityOutput) :=
  match s.service.keyPair with
  | some _ => s.returns id method
  | none => s.awaits id method (.reading .ed25519)

/-- A call, up to its first await. -/
def call (method : Method) : Option (Identity × IdentityOutput) :=
  match method with
  | .signChallenge nonce _ =>
      if nonce.length = 32 then s.initializePairs id method
      else some (s, ⟨false, some (.thrown (.argumentError "nonce must be 32 bytes"))⟩)
  | _ => s.initializePairs id method

variable (dart : DartLibraries)

def publicKeyOf (a : Algorithm) (pair : Bytes 32) : Bytes 32 :=
  match a with
  | .ed25519 => dart.ed25519PublicKey pair
  | .x25519 => dart.x25519PublicKey pair

/-- A task goes on from an await to the next.  The exchange key pair is assigned before
its seed is written, the signing key pair after. -/
def resume (fresh : Bytes 32) (method : Method) : Phase → Option (Identity × IdentityOutput)
  | .read a none => s.awaits id method (.generating a)
  | .read a (some encodedSeed) =>
      match seedOf a encodedSeed with
      | .error e => s.throws id e
      | .ok seed => s.awaits id method (.rebuilding a seed)
  | .generating .ed25519 => s.awaits id method (.extracting .ed25519 fresh)
  | .generating .x25519 => (s.withPair .x25519 fresh).awaits id method (.extracting .x25519 fresh)
  | .extracting a pair => s.awaits id method (.writing a pair)
  | .written .ed25519 pair => (s.withPair .ed25519 pair).next id method .ed25519
  | .written .x25519 _ => s.next id method .x25519
  | .rebuilding a pair => (s.withPair a pair).next id method a
  | .initialized => s.proceed id method
  | .extractingKey a pair => s.answers id (.publicKey a (publicKeyOf dart a pair))
  | .signing pair payload => s.answers id (.signature payload (dart.sign pair payload))
  | .agreeing pair remote =>
      ({ s with service := { s.service with
          sessionKey := some (dart.sharedSecretKey pair remote) } } : Identity).answers id .session
  | .reading _ | .writing _ _ | .authenticating => none

/-- The plugin carries out what the task awaits. -/
def performStorage (method : Method) : Phase → Option (Identity × IdentityOutput)
  | .reading a => s.awaits id method (.read a (s.storage a))
  | .writing a pair => (s.store a (hex pair.1)).awaits id method (.written a pair)
  | _ => none

/-- The plugin fails, and the call throws. -/
def failStorage : Phase → Option (Identity × IdentityOutput)
  | .reading _ | .writing _ _ => s.throws id .platform
  | _ => none

/-- The rest of `signChallenge`. -/
def authenticated (approved : Option Bool) : Method → Option (Identity × IdentityOutput)
  | .signChallenge nonce timestamp =>
      match approved with
      | none => s.throws id .platform
      | some false => s.throws id (.stateError "biometric approval denied")
      | some true =>
          match s.service.keyPair with
          | none => s.throws id .nullCheck
          | some pair =>
              s.awaits id (.signChallenge nonce timestamp) (.signing pair (nonce ++ u64be timestamp))
  | _ => none

end Identity

/-- The calls on one `CryptoService`, in any order of their steps. -/
def identityMachine (dart : DartLibraries) :
    Machine Identity (ℕ × IdentityEvent) IdentityOutput where
  step s
    | (id, .call method) =>
        match s.tasks id with
        | none => s.call id method
        | some _ => none
    | (id, .storage) => (s.tasks id).bind fun t => s.performStorage id t.method t.phase
    | (id, .storageFails) => (s.tasks id).bind fun t => s.failStorage id t.phase
    | (id, .resume fresh) => (s.tasks id).bind fun t => s.resume id dart fresh t.method t.phase
    | (id, .authenticate approved) =>
        (s.tasks id).bind fun t =>
          match t.phase with
          | .authenticating => s.authenticated id approved t.method
          | _ => none

abbrev IdentityEntry := Entry Identity (ℕ × IdentityEvent) IdentityOutput

end OpenBioUnlock.Mobile

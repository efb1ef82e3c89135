import Mathlib.Logic.Function.Basic
import OpenBioUnlock.Machine.Run
import OpenBioUnlock.Windows.Hresult

/-!
# The COM module

The class factory and the exports of `windows-cp/dllmain.cpp`, and the reference
counts of the provider and the credential of `windows-cp/CredentialProvider.cpp`.

`Dll` is what the code keeps: the objects that exist, with their counts, and the
counter `module_locks`.  `ComState` adds what the client holds, references and server
locks, so that a client that follows the rules of COM is one whose calls the machine
accepts: it calls an object only through a reference it holds, releases only what it
holds, and unlocks only what it locked.

A call on an object that has been deleted has no meaning, and no next state.
-/

namespace OpenBioUnlock.Windows

open Runs

/-! ## Identifiers -/

structure Guid where
  data1 : UInt32
  data2 : UInt16
  data3 : UInt16
  /-- the eight bytes, the first one highest -/
  data4 : UInt64
  deriving DecidableEq

def clsidOpenBio : Guid := ⟨0xd1aa6d25, 0x6f49, 0x4a52, 0xa2cf6f22d9d19001⟩

/-- The interfaces the classes are asked for. -/
inductive Iid where
  | unknown
  | classFactory
  | credentialProvider
  | credentialProviderCredential
  | other (iid : Guid)
  deriving DecidableEq

/-! ## Objects -/

/-- An address, as the number of objects created before. -/
abbrev Pointer := ℕ

/-- The class of an object, with its members other than the count. -/
inductive Class where
  | factory
  | provider (credential : Pointer)
  | credential
  deriving DecidableEq

/-- The interface of a class besides `IUnknown`. -/
def Class.interface : Class → Iid
  | .factory => .classFactory
  | .provider _ => .credentialProvider
  | .credential => .credentialProviderCredential

/-- An object with its `references_`. -/
structure Object where
  cls : Class
  references : UInt32
  deriving DecidableEq

structure Dll where
  objects : Pointer → Option Object
  /-- the number of objects created so far -/
  created : ℕ
  moduleLocks : UInt32

/-- What a call gives its caller. -/
inductive Answer where
  /-- a result, with the object handed out through an out-parameter -/
  | result (code : Hresult) (object : Option Pointer)
  | count (value : UInt32)
  /-- an exception leaves the call -/
  | thrown
  deriving DecidableEq

def Answer.object : Answer → Option Pointer
  | .result _ object => object
  | _ => none

namespace Dll

def put (d : Dll) (o : Pointer) (object : Option Object) : Dll :=
  { d with objects := Function.update d.objects o object }

/-- `new`: an object with one reference, and its address. -/
def new (d : Dll) (cls : Class) : Dll × Pointer :=
  ({ d.put d.created (some ⟨cls, 1⟩) with created := d.created + 1 }, d.created)

/-- `AddRef`, in each of the three classes. -/
def addRef (d : Dll) (o : Pointer) : Option (Dll × UInt32) :=
  (d.objects o).map fun object =>
    (d.put o (some { object with references := object.references + 1 }), object.references + 1)

/-- `Release`, in each of the three classes: a provider that is deleted leaves its
credential as it is. -/
def release (d : Dll) (o : Pointer) : Option (Dll × UInt32) :=
  (d.objects o).map fun object =>
    let value := object.references - 1
    (d.put o (if value = 0 then none else some { object with references := value }), value)

/-- `QueryInterface`, in each of the three classes, for a caller that passes a place for
the pointer or none. -/
def queryInterface (d : Dll) (o : Pointer) (riid : Iid) (place : Bool) : Option (Dll × Answer) :=
  (d.objects o).bind fun object =>
    if !place then some (d, .result ePointer none)
    else if riid = .unknown || riid = object.cls.interface then
      (d.addRef o).map fun p => (p.1, .result sOk (some o))
    else some (d, .result eNoInterface none)

/-- The end of a creation: the interface is queried and the creator's own reference
released. -/
def handOut (d : Dll) (o : Pointer) (riid : Iid) (place : Bool) : Option (Dll × Answer) :=
  (d.queryInterface o riid place).bind fun queried =>
    (queried.1.release o).map fun released => (released.1, queried.2)

/-- `DllGetClassObject`, with whether there is memory. -/
def dllGetClassObject (d : Dll) (clsid : Guid) (riid : Iid) (place memory : Bool) :
    Option (Dll × Answer) :=
  if clsid ≠ clsidOpenBio then some (d, .result classEClassNotAvailable none)
  else if !memory then some (d, .result eOutOfMemory none)
  else
    let (d, factory) := d.new .factory
    d.handOut factory riid place

/-- `OpenBioClassFactory::CreateInstance`, with whether there is memory for the provider
and for its credential: the constructor of the provider allocates the latter with a
`new` that throws. -/
def createInstance (d : Dll) (outer : Bool) (riid : Iid) (place memory credentialMemory : Bool) :
    Option (Dll × Answer) :=
  if outer || !place then some (d, .result classENoAggregation none)
  else if !memory then some (d, .result eOutOfMemory none)
  -- the memory of the provider is freed again on the way out
  else if !credentialMemory then some (d, .thrown)
  else
    let (d, credential) := d.new .credential
    let (d, provider) := d.new (.provider credential)
    d.handOut provider riid place

/-- `OpenBioCredentialProvider::GetCredentialAt` of a provider with this credential. -/
def getCredentialAt (d : Dll) (credential : Pointer) (index : UInt32) (place : Bool) :
    Option (Dll × Answer) :=
  if index ≠ 0 || !place then some (d, .result eBounds none)
  else (d.addRef credential).map fun p => (p.1, .result sOk (some credential))

/-- `OpenBioClassFactory::LockServer` -/
def lockServer (d : Dll) (lock : Bool) : Dll × Answer :=
  ({ d with moduleLocks := if lock then d.moduleLocks + 1 else d.moduleLocks - 1 },
    .result sOk none)

def dllCanUnloadNow (d : Dll) : Hresult :=
  if d.moduleLocks = 0 then sOk else sFalse

end Dll

/-! ## The client -/

/-- The module and what its client holds. -/
structure ComState extends Dll where
  held : Pointer → ℕ
  locks : ℕ

/-- The module as loaded. -/
def ComState.initial : ComState where
  objects := fun _ => none
  created := 0
  moduleLocks := 0
  held := fun _ => 0
  locks := 0

inductive Call where
  | dllGetClassObject (clsid : Guid) (riid : Iid) (place memory : Bool)
  | createInstance (factory : Pointer) (outer : Bool) (riid : Iid)
      (place memory credentialMemory : Bool)
  | getCredentialAt (provider : Pointer) (index : UInt32) (place : Bool)
  | queryInterface (o : Pointer) (riid : Iid) (place : Bool)
  | addRef (o : Pointer)
  | release (o : Pointer)
  | lockServer (factory : Pointer) (lock : Bool)

namespace ComState

/-- The class of an object the client holds a reference to. -/
def classOf (s : ComState) (o : Pointer) : Option Class :=
  if 0 < s.held o then (s.objects o).map Object.cls else none

/-- The state after a call, whose caller now holds what it was handed. -/
def after (s : ComState) (r : Dll × Answer) : ComState × Answer :=
  ({ s with
    toDll := r.1
    held := match r.2.object with
      | some o => Function.update s.held o (s.held o + 1)
      | none => s.held }, r.2)

/-- A call of a client that follows the rules. -/
def step (s : ComState) (call : Call) : Option (ComState × Answer) :=
  match call with
  | .dllGetClassObject clsid riid place memory =>
      (s.toDll.dllGetClassObject clsid riid place memory).map s.after
  | .createInstance factory outer riid place memory credentialMemory =>
      match s.classOf factory with
      | some .factory =>
          (s.toDll.createInstance outer riid place memory credentialMemory).map s.after
      | _ => none
  | .getCredentialAt provider index place =>
      match s.classOf provider with
      | some (.provider credential) =>
          (s.toDll.getCredentialAt credential index place).map s.after
      | _ => none
  | .queryInterface o riid place =>
      match s.classOf o with
      | some _ => (s.toDll.queryInterface o riid place).map s.after
      | none => none
  | .addRef o =>
      match s.classOf o with
      | some _ => (s.toDll.addRef o).map fun p =>
          ({ s with toDll := p.1, held := Function.update s.held o (s.held o + 1) }, .count p.2)
      | none => none
  | .release o =>
      match s.classOf o with
      | some _ => (s.toDll.release o).map fun p =>
          ({ s with toDll := p.1, held := Function.update s.held o (s.held o - 1) }, .count p.2)
      | none => none
  | .lockServer factory lock =>
      match s.classOf factory with
      | some .factory =>
          if lock then
            some ({ s with toDll := (s.toDll.lockServer true).1, locks := s.locks + 1 },
              (s.toDll.lockServer true).2)
          -- the client unlocks what it locked
          else if s.locks = 0 then none
          else
            some ({ s with toDll := (s.toDll.lockServer false).1, locks := s.locks - 1 },
              (s.toDll.lockServer false).2)
      | _ => none

end ComState

def comMachine : Machine ComState Call Answer where
  step := ComState.step

abbrev ComEntry := Entry ComState Call Answer

end OpenBioUnlock.Windows

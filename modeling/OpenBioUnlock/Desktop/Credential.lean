import Mathlib.Data.List.TakeWhile
import Mathlib.Logic.Function.Basic
import OpenBioUnlock.Codec.Base64
import OpenBioUnlock.Desktop.Qt

/-!
# The credential vault

`src/core/credential.cpp`, whose functions have a body for each platform.  On Windows a
secret is protected by DPAPI and put in the settings; on Linux it is handed to the
Secret Service; other builds have no vault.

The vault is a map of items.  Names that the system keeps under one item — one
settings key, one `name` attribute up to the first NUL — share it.  What the system
decides, the success of a call and what DPAPI draws, is the `Outcome` of the call.

`read_iff_recovers` says in every history what a `read` gives back: on Linux the secret
last written, on Windows nothing that was ever written, unless the text of a protected
blob is by chance a blob itself.  `write` encodes it and `read` does not decode it.
-/

namespace OpenBioUnlock.Desktop

open Codec

inductive Backend where
  | windows
  | libsecret
  | unsupported
  deriving DecidableEq

abbrev Salt := List UInt8

/-- `CryptProtectData`, which draws a salt and takes a description, and
`CryptUnprotectData`. -/
structure Dpapi where
  protect : Salt → QString → QByteArray → QByteArray
  unprotect : QByteArray → Option QByteArray
  /-- it inverts the other, and fails on all else -/
  unprotect_eq_some : ∀ {blob secret : QByteArray},
    unprotect blob = some secret ↔ ∃ salt description, blob = protect salt description secret

/-- The platform: DPAPI, and the settings key of a name. -/
structure Platform where
  dpapi : Dpapi
  settingsKey : QString → QString

inductive Item where
  | setting (key : QString)
  /-- with the value of the attribute `name` -/
  | secret (name : QByteArray)
  deriving DecidableEq

abbrev Vault := Item → Option QByteArray

/-- What the system does in a call. -/
inductive Outcome where
  | done (salt : Salt)
  | failed (message : Option String)

/-- The bytes up to the first NUL. -/
def cString (bytes : QByteArray) : QByteArray :=
  bytes.takeWhile (· ≠ 0)

/-- The text an `LPCWSTR` to the string points to. -/
def wideString (s : QString) : QString :=
  s.takeWhile (· ≠ 0)

/-- What a `DATA_BLOB` of the bytes holds: its size is a `DWORD`. -/
def dataBlob (bytes : QByteArray) : QByteArray :=
  bytes.take (bytes.length % 4294967296)

/-- `QByteArray(data, static_cast<int>(size))`: if the size is negative then, the data are
a C string. -/
def fromBlob (blob : QByteArray) : QByteArray :=
  if blob.length < 2147483648 then blob else cString blob

def noVault : String := "no supported OS credential vault is available"

namespace Platform

variable (os : Platform) (backend : Backend)

/-- Where a name is kept. -/
def item (name : QString) : Item :=
  match backend with
  | .windows => .setting (os.settingsKey name)
  | _ => .secret (cString (toUtf8 name))

/-- What `write` stores of a secret on Windows. -/
def stored (salt : Salt) (name : QString) (secret : QByteArray) : QByteArray :=
  base64Encode (fromBlob (os.dpapi.protect salt (wideString name) (dataBlob secret)))

/-- `CredentialStore::write`: the vault, what it returns, and the error if one is set. -/
def write (vault : Vault) (name : QString) (secret : QByteArray) (outcome : Outcome) :
    Vault × Bool × Option String :=
  match backend, outcome with
  | .windows, .done salt =>
      (Function.update vault (os.item .windows name) (some (os.stored salt name secret)),
        true, none)
  | .windows, .failed _ => (vault, false, some "Windows DPAPI encryption failed")
  | .libsecret, .done _ =>
      (Function.update vault (os.item .libsecret name) (some (cString (base64Encode secret))),
        true, none)
  | .libsecret, .failed message =>
      (vault, false, some (message.getD "Secret Service write failed"))
  | .unsupported, _ => (vault, false, some noVault)

/-- What `read` makes of the value under the name. -/
def readValue (value : Option QByteArray) : QByteArray × Option String :=
  match backend with
  | .windows =>
      -- the text of `write` is taken as it is
      let encoded := value.getD []
      if encoded = [] then ([], some "Windows DPAPI decryption failed")
      else
        match os.dpapi.unprotect (dataBlob encoded) with
        | none => ([], some "Windows DPAPI decryption failed")
        | some result => (fromBlob result, none)
  | .libsecret =>
      match value with
      | none => ([], none)
      | some value => (base64Decode (cString value), none)
  | .unsupported => ([], some noVault)

/-- `CredentialStore::read`: what it returns, and the error if one is set.  The Secret
Service may be `unavailable`. -/
def read (vault : Vault) (name : QString) (unavailable : Option String) :
    QByteArray × Option String :=
  match backend, unavailable with
  | .libsecret, some message => ([], some message)
  | _, _ => os.readValue backend (vault (os.item backend name))

/-- `QSettings::remove` of a key: that setting and the ones under it, or all of them. -/
def removes (key : QString) : Item → Bool
  | .setting key' => key = [] || key' = key || (key ++ [47]).isPrefixOf key'
  | .secret _ => false

/-- `CredentialStore::remove`. -/
def remove (vault : Vault) (name : QString) (outcome : Outcome) : Vault × Bool × Option String :=
  match backend, outcome with
  | .windows, _ =>
      (fun item => if removes (os.settingsKey name) item then none else vault item, true, none)
  | .libsecret, .done _ => (Function.update vault (os.item .libsecret name) none, true, none)
  | .libsecret, .failed message => (vault, false, message)
  | .unsupported, _ => (vault, false, some noVault)

end Platform

/-! ## Histories -/

inductive VaultCall where
  | write (name : QString) (secret : QByteArray) (outcome : Outcome)
  | remove (name : QString) (outcome : Outcome)

def VaultCall.name : VaultCall → QString
  | .write name _ _ => name
  | .remove name _ => name

namespace Platform

variable (os : Platform) (backend : Backend)

/-- The call on a vault: the vault after it, and what it returns. -/
def call (vault : Vault) : VaultCall → Vault × Bool × Option String
  | .write name secret outcome => os.write backend vault name secret outcome
  | .remove name outcome => os.remove backend vault name outcome

def run (vault : Vault) (calls : List VaultCall) : Vault :=
  calls.foldl (fun vault call => (os.call backend vault call).1) vault

/-- The call succeeds, and the item is one it is about. -/
def reaches (item : Item) : VaultCall → Bool
  | .write name secret outcome =>
      (os.write backend (fun _ => none) name secret outcome).2.1 && item = os.item backend name
  | .remove name outcome =>
      (os.remove backend (fun _ => none) name outcome).2.1 &&
        match backend with
        | .windows => removes (os.settingsKey name) item
        | _ => item = os.item backend name

/-- The last call that reached the item. -/
def lastOn (item : Item) (calls : List VaultCall) : Option VaultCall :=
  (calls.filter (os.reaches backend item)).getLast?

/-- What a call leaves in the items it reaches. -/
def leaves : VaultCall → Option QByteArray
  | .write name secret (.done salt) =>
      match backend with
      | .windows => some (os.stored salt name secret)
      | _ => some (cString (base64Encode secret))
  | _ => none

/-- One call changes the items it reaches and no others. -/
theorem call_apply (vault : Vault) (call : VaultCall) (item : Item) :
    (os.call backend vault call).1 item =
      if os.reaches backend item call then os.leaves backend call else vault item := by
  cases call with
  | write name secret outcome =>
      cases backend <;> cases outcome <;>
        simp [Platform.call, write, reaches, leaves, Function.update_apply]
  | remove name outcome =>
      cases backend <;> cases outcome <;>
        simp [Platform.call, remove, reaches, leaves, Function.update_apply]

/-- **An item holds what the last call on it left.** -/
theorem run_apply (vault : Vault) (calls : List VaultCall) (item : Item) :
    os.run backend vault calls item =
      ((os.lastOn backend item calls).map (os.leaves backend)).getD (vault item) := by
  induction calls generalizing vault with
  | nil => rfl
  | cons call calls ih =>
      have hrun : os.run backend vault (call :: calls) =
          os.run backend (os.call backend vault call).1 calls := rfl
      rw [hrun, ih, call_apply]
      unfold lastOn
      rw [List.filter_cons]
      by_cases hreaches : os.reaches backend item call
      · simp only [hreaches, if_true, List.getLast?_cons]
        cases (calls.filter (os.reaches backend item)).getLast? <;> rfl
      · simp only [hreaches, if_false, Bool.false_eq_true]

end Platform

/-! ## What a read gives back -/

namespace Platform

variable (os : Platform) (backend : Backend)

/-- The text is a blob of the secret. -/
def IsBlob (text secret : QByteArray) : Prop :=
  text ≠ [] ∧ ∃ salt description plain,
    dataBlob text = os.dpapi.protect salt description plain ∧ fromBlob plain = secret

/-- The call wrote something from which `read` recovers the secret. -/
def Recovers (secret : QByteArray) : VaultCall → Prop
  | .write name written (.done salt) =>
      match backend with
      | .windows => os.IsBlob (os.stored salt name written) secret
      | .libsecret => written = secret
      | .unsupported => False
  | _ => False

theorem cString_base64Encode (secret : QByteArray) :
    cString (base64Encode secret) = base64Encode secret :=
  List.takeWhile_eq_self_iff.mpr fun _ hc => decide_eq_true fun hzero =>
    zero_not_mem_base64Encode secret (hzero ▸ hc)

theorem readValue_windows (text : QByteArray) {secret : QByteArray} (hsecret : secret ≠ []) :
    (os.readValue .windows (some text)).1 = secret ↔ os.IsBlob text secret := by
  unfold readValue IsBlob
  simp only [Option.getD_some]
  split_ifs with hempty
  · simp [hempty, hsecret.symm]
  · constructor
    · intro hread
      refine ⟨hempty, ?_⟩
      cases hresult : os.dpapi.unprotect (dataBlob text) with
      | none =>
          rw [hresult] at hread
          exact absurd hread.symm hsecret
      | some plain =>
          rw [hresult] at hread
          obtain ⟨salt, description, hblob⟩ := os.dpapi.unprotect_eq_some.mp hresult
          exact ⟨salt, description, plain, hblob, hread⟩
    · rintro ⟨-, salt, description, plain, hblob, hplain⟩
      rw [os.dpapi.unprotect_eq_some.mpr ⟨salt, description, hblob⟩]
      exact hplain

theorem write_returns (vault vault' : Vault) (name : QString) (secret : QByteArray)
    (outcome : Outcome) : (os.write backend vault name secret outcome).2.1 =
      (os.write backend vault' name secret outcome).2.1 := by
  cases backend <;> cases outcome <;> rfl

/-- What a call leaves reads as the secret exactly if the secret is recovered from it. -/
theorem readValue_leaves {call : VaultCall} {item : Item} {secret : QByteArray}
    (hsecret : secret ≠ []) (hreaches : os.reaches backend item call = true) :
    (os.readValue backend (os.leaves backend call)).1 = secret ↔
      os.Recovers backend secret call := by
  have hnone : (os.readValue backend none).1 = [] := by cases backend <;> rfl
  cases call with
  | remove name outcome => simp [leaves, Recovers, hnone, hsecret.symm]
  | write name written outcome =>
      cases outcome with
      | failed message => simp [leaves, Recovers, hnone, hsecret.symm]
      | done salt =>
          cases backend with
          | windows => exact os.readValue_windows _ hsecret
          | libsecret =>
              simp [leaves, Recovers, readValue, cString_base64Encode]
          | unsupported => simp [reaches, write] at hreaches

/-- **What is read back**, in every history after a `write` that succeeds: the secret,
exactly if the last call that reached the item of the name wrote something the secret is
recovered from. -/
theorem read_iff_recovers (vault : Vault) (name : QString) {secret : QByteArray}
    {outcome : Outcome} (calls : List VaultCall) (hsecret : secret ≠ [])
    (hwritten : (os.write backend vault name secret outcome).2.1 = true) :
    (os.read backend (os.run backend (os.write backend vault name secret outcome).1 calls) name
        none).1 = secret ↔
      ∃ call, os.lastOn backend (os.item backend name) (.write name secret outcome :: calls) =
        some call ∧ os.Recovers backend secret call := by
  have hfirst : os.reaches backend (os.item backend name) (.write name secret outcome) = true := by
    simp [reaches, os.write_returns backend _ vault, hwritten]
  have hread : ∀ vault', os.read backend vault' name none =
      os.readValue backend (vault' (os.item backend name)) := fun vault' => by
    cases backend <;> rfl
  have hrun : os.run backend (os.write backend vault name secret outcome).1 calls =
      os.run backend vault (.write name secret outcome :: calls) := rfl
  obtain ⟨last, hlast⟩ : ∃ last, os.lastOn backend (os.item backend name)
      (.write name secret outcome :: calls) = some last := by
    unfold lastOn
    rw [List.filter_cons, if_pos hfirst, List.getLast?_cons]
    exact ⟨_, rfl⟩
  have hreaches : os.reaches backend (os.item backend name) last = true :=
    List.of_mem_filter (List.mem_of_getLast? hlast)
  rw [hread, hrun, run_apply, hlast]
  simp only [Option.map_some, Option.getD_some, Option.some.injEq, exists_eq_left']
  exact os.readValue_leaves backend hsecret hreaches

/-- A secret written is read back, if no later call is about that name. -/
def RoundTrip : Prop :=
  ∀ (vault : Vault) (name : QString) (secret : QByteArray) (outcome : Outcome)
    (calls : List VaultCall), secret ≠ [] →
    (os.write backend vault name secret outcome).2.1 = true →
    (∀ call ∈ calls, call.name ≠ name) →
    (os.read backend (os.run backend (os.write backend vault name secret outcome).1 calls) name
      none).1 = secret

end Platform

/-! ## Two platforms -/

/-- Blobs that begin with their version, as those of DPAPI do. -/
def sampleDpapi : Dpapi where
  protect _ _ secret := 1 :: 0 :: 0 :: 0 :: secret
  unprotect
    | 1 :: 0 :: 0 :: 0 :: secret => some secret
    | _ => none
  unprotect_eq_some {blob secret} := by
    constructor
    · intro h
      refine ⟨[], [], ?_⟩
      split at h
      · rw [Option.some.inj h]
      · cases h
    · rintro ⟨-, -, rfl⟩
      rfl

def samplePlatform : Platform where
  dpapi := sampleDpapi
  settingsKey := id

def sampleName : QString := qStringLiteral "session"

def otherName : QString := qStringLiteral "other"

theorem read_iff_recovers_sample :
    (samplePlatform.read .libsecret (samplePlatform.run .libsecret
        (samplePlatform.write .libsecret (fun _ => none) sampleName [0, 255] (.done [])).1
        [.write otherName [7] (.done []), .remove sampleName (.failed none)]) sampleName none).1 =
          [0, 255] ↔
      ∃ call, samplePlatform.lastOn .libsecret (samplePlatform.item .libsecret sampleName)
          [.write sampleName [0, 255] (.done []), .write otherName [7] (.done []),
            .remove sampleName (.failed none)] = some call ∧
        samplePlatform.Recovers .libsecret [0, 255] call :=
  samplePlatform.read_iff_recovers .libsecret (fun _ => none) sampleName _ (by decide) rfl

theorem round_trip_fails :
    (samplePlatform.write .windows (fun _ => none) sampleName [1] (.done [])).2.1 = true ∧
      samplePlatform.read .windows
          (samplePlatform.write .windows (fun _ => none) sampleName [1] (.done [])).1 sampleName
          none = ([], some "Windows DPAPI decryption failed") ∧
      ¬ ∀ (os : Platform) (backend : Backend), os.RoundTrip backend := by
  have hwritten : (samplePlatform.write .windows (fun _ => none) sampleName [1] (.done [])).2.1 =
      true := rfl
  have hread : samplePlatform.read .windows
      (samplePlatform.write .windows (fun _ => none) sampleName [1] (.done [])).1 sampleName none =
        ([], some "Windows DPAPI decryption failed") := by decide +kernel
  refine ⟨hwritten, hread, fun h => ?_⟩
  have hback := h samplePlatform .windows (fun _ => none) sampleName [1] (.done []) []
    (by decide) hwritten (by simp)
  rw [Platform.run, List.foldl_nil, hread] at hback
  cases hback

end OpenBioUnlock.Desktop

import OpenBioUnlock.Daemon.Server

/-!
# A vault that fails

`add_public_key` reads the list of keys from the credential vault and writes it back
with one key more.  `load_public_keys` takes every failure of `get_password` for an
empty list: for a missing entry that is what the vault holds, for any other failure it
is not, and the list that is written then has the new key alone.

`add_public_key_iff` says exactly when the keys the vault held are still there.
-/

namespace OpenBioUnlock.Daemon

open Codec Runs

/-- A failure of the vault, other than that there is no entry. -/
inductive VaultFault where
  | platformFailure
  | noStorageAccess
  | badEncoding
  | tooLong
  | invalid
  | ambiguous
  deriving DecidableEq

/-- `keyring::Error` -/
inductive KeyringError where
  | noEntry
  | fault (f : VaultFault)
  deriving DecidableEq

inductive StoreError where
  | vault (error : KeyringError)
  | encoding (error : FromHexError)
  deriving DecidableEq

/-- `get_password` of the entry with this text, if there is one. -/
def entryPassword (entry : Option ByteString) : Option VaultFault → Except KeyringError ByteString
  | some f => .error (.fault f)
  | none =>
      match entry with
      | none => .error .noEntry
      | some value => .ok value

/-- `add_public_key`, with the faults of its two accesses of the vault: the entry left,
and the result. -/
def addPublicKey (entry : Option ByteString) (key : ByteArr 32) (get set : Option VaultFault) :
    Option ByteString × Except StoreError Unit :=
  match loadPublicKeys (entryPassword entry get).toOption with
  | .error error => (entry, .error (.encoding error))
  | .ok keys =>
      match set with
      | some f => (entry, .error (.vault (.fault f)))
      | none => (some (encodeKeys (withKey keys key)), .ok ())

/-- The key is on a line of the stored text. -/
def Holds (entry : Option ByteString) (key : ByteArr 32) : Prop :=
  ∃ value ∈ entry, ∃ line ∈ lines value, line ≠ [] ∧ parseKey line = .ok key

/-- **No key is lost**: what the vault held it still holds, and a key that was accepted
as well. -/
def KeepsKeys (entry : Option ByteString) (key : ByteArr 32)
    (r : Option ByteString × Except StoreError Unit) : Prop :=
  (∀ k, Holds entry k → Holds r.1 k) ∧ (r.2 = .ok () → Holds r.1 key)

variable {entry : Option ByteString} {value : ByteString} {key k : ByteArr 32}
variable {keys : List (ByteArr 32)} {get set : Option VaultFault}

/-! ## What is held -/

theorem not_holds_none : ¬ Holds none k := by
  rintro ⟨value, hvalue, -⟩
  cases hvalue

/-- A text that is read line by line gives a key for each line. -/
theorem mem_of_mapM {texts : List ByteString} (h : texts.mapM parseKey = .ok keys) :
    k ∈ keys ↔ ∃ line ∈ texts, parseKey line = .ok k := by
  induction texts generalizing keys with
  | nil =>
      cases h
      simp
  | cons line rest ih =>
      rw [List.mapM_cons] at h
      cases hline : parseKey line with
      | error error =>
          rw [hline] at h
          cases h
      | ok first =>
          cases hrest : rest.mapM parseKey with
          | error error =>
              rw [hline, hrest] at h
              cases h
          | ok more =>
              rw [hline, hrest] at h
              cases h
              rw [List.mem_cons, ih hrest]
              constructor
              · rintro (rfl | ⟨other, hother, hk⟩)
                · exact ⟨line, List.mem_cons_self, hline⟩
                · exact ⟨other, List.mem_cons_of_mem _ hother, hk⟩
              · rintro ⟨other, hother, hk⟩
                rcases List.mem_cons.mp hother with rfl | hother
                · exact Or.inl (Except.ok.inj (hk.symm.trans hline))
                · exact Or.inr ⟨other, hother, hk⟩

/-- **What is held is what is loaded**, if anything is. -/
theorem holds_iff (h : loadPublicKeys (some value) = .ok keys) :
    Holds (some value) k ↔ k ∈ keys := by
  rw [mem_of_mapM h]
  constructor
  · rintro ⟨_, hvalue, line, hline, hne, hk⟩
    cases hvalue
    exact ⟨line, List.mem_filter.mpr ⟨hline, decide_eq_true hne⟩, hk⟩
  · rintro ⟨line, hline, hk⟩
    obtain ⟨hmem, hne⟩ := List.mem_filter.mp hline
    exact ⟨value, rfl, line, hmem, of_decide_eq_true hne, hk⟩

theorem holds_encodeKeys : Holds (some (encodeKeys keys)) k ↔ k ∈ keys :=
  holds_iff (load_encodeKeys keys)

/-! ## The law -/

/-- A call that does not write keeps the keys. -/
theorem keepsKeys_refused {error : StoreError} : KeepsKeys entry key (entry, .error error) :=
  ⟨fun _ h => h, fun h => by cases h⟩

/-- A call that writes keeps the keys if it has read them. -/
theorem keepsKeys_written (h : ∀ k, Holds entry k → k ∈ keys) :
    KeepsKeys entry key (some (encodeKeys (withKey keys key)), .ok ()) := by
  refine ⟨fun k hk => ?_, fun _ => ?_⟩
  · exact holds_encodeKeys.mpr (mem_withKey.mpr (Or.inl (h k hk)))
  · exact holds_encodeKeys.mpr (mem_withKey.mpr (Or.inr rfl))

/-- A vault that is read keeps its keys. -/
theorem keepsKeys_read : KeepsKeys entry key (addPublicKey entry key none set) := by
  cases entry with
  | none =>
      cases set with
      | some f => exact keepsKeys_refused
      | none => exact keepsKeys_written fun k hk => absurd hk not_holds_none
  | some value =>
      simp only [addPublicKey, entryPassword, Except.toOption]
      cases hload : loadPublicKeys (some value) with
      | error error => exact keepsKeys_refused
      | ok keys =>
          cases set with
          | some f => exact keepsKeys_refused
          | none => exact keepsKeys_written fun k hk => (holds_iff hload).mp hk

/-- **`add_public_key` loses no key exactly if the vault is read, or not written, or held
no other key.** -/
theorem add_public_key_iff (entry : Option ByteString) (key : ByteArr 32)
    (get set : Option VaultFault) :
    KeepsKeys entry key (addPublicKey entry key get set) ↔
      get = none ∨ set ≠ none ∨ ∀ k, Holds entry k → k = key := by
  cases get with
  | none => exact iff_of_true keepsKeys_read (Or.inl rfl)
  | some f =>
      cases set with
      | some g => exact iff_of_true keepsKeys_refused (Or.inr (Or.inl (by simp)))
      | none =>
          -- the list read is empty, and the new key the only one written
          have hwritten : ∀ k, Holds (addPublicKey entry key (some f) none).1 k ↔ k = key := by
            intro k
            exact holds_encodeKeys.trans (by simp [withKey])
          simp only [reduceCtorEq, ne_eq, not_true_eq_false, false_or]
          constructor
          · rintro ⟨hkept, -⟩ k hk
            exact (hwritten k).mp (hkept k hk)
          · intro honly
            exact ⟨fun k hk => (hwritten k).mpr (honly k hk), fun _ => (hwritten key).mpr rfl⟩

/-- The vault cannot be read for a moment, and the key it held is overwritten. -/
theorem add_public_key_fails :
    addPublicKey (some (encodeKeys [.replicate 32 1])) (.replicate 32 2) (some .platformFailure)
        none = (some (encodeKeys [.replicate 32 2]), .ok ()) ∧
      ¬ ∀ entry key get set, KeepsKeys entry key (addPublicKey entry key get set) := by
  have hwritten : addPublicKey (some (encodeKeys [.replicate 32 1])) (.replicate 32 2)
      (some .platformFailure) none = (some (encodeKeys [.replicate 32 2]), .ok ()) := rfl
  refine ⟨hwritten, fun h => ?_⟩
  have hkept := (h (some (encodeKeys [.replicate 32 1])) (.replicate 32 2)
    (some .platformFailure) none).1 (.replicate 32 1) (holds_encodeKeys.mpr (by simp))
  rw [hwritten, holds_encodeKeys, List.mem_singleton] at hkept
  exact absurd hkept (by decide)

/-! ## The `Pair` arm -/

/-- **A `Pair` whose two steps are taken together is `add_public_key`**: the vault is as
that leaves it, and the answer is whether it succeeded. -/
theorem pair_steps (dalek : Dalek) {s : DaemonState} {conn : Conn} {store : Bool}
    {pairingCode : ByteString}
    (hconn : s.handlers conn = some ⟨store, .pairLoad key pairingCode⟩) :
    let acts := [(conn, Act.getPassword get.isNone), (conn, Act.setPassword set.isNone)]
    let r := addPublicKey s.vault key get set
    ((daemonMachine dalek).final s acts).vault = r.1 ∧
      (((daemonMachine dalek).trace s acts).getLast?.map fun x => x.out) =
        some (some (.paired r.2.toBool)) := by
  have hvalue : s.getPassword get.isNone = (entryPassword s.vault get).toOption := by
    cases get with
    | some f => rfl
    | none =>
        simp only [DaemonState.getPassword, Option.isNone_none, if_true, entryPassword]
        cases s.vault <;> rfl
  cases hload : loadPublicKeys (entryPassword s.vault get).toOption with
  | error error =>
      have hread : (daemonMachine dalek).step s (conn, .getPassword get.isNone) =
          some (s.goto conn store .idle, some (.paired false)) := by
        simp only [daemonMachine, DaemonState.step, hconn, hvalue, hload]
        rfl
      -- the arm has answered, and does not come to the second access
      have hidle : (daemonMachine dalek).step (s.goto conn store .idle)
          (conn, .setPassword set.isNone) = none := by
        simp [daemonMachine, DaemonState.step, DaemonState.goto]
      simp only [Machine.final, Machine.trace, hread, hidle, addPublicKey, hload]
      exact ⟨rfl, rfl⟩
  | ok keys =>
      have hread : (daemonMachine dalek).step s (conn, .getPassword get.isNone) =
          some (s.goto conn store (.pairStore key pairingCode keys), none) := by
        simp only [daemonMachine, DaemonState.step, hconn, hvalue, hload]
        rfl
      have hstore : (s.goto conn store (.pairStore key pairingCode keys)).handlers conn =
          some ⟨store, .pairStore key pairingCode keys⟩ := by
        simp [DaemonState.goto]
      cases set with
      | some f =>
          have hwrite : (daemonMachine dalek).step
              (s.goto conn store (.pairStore key pairingCode keys)) (conn, .setPassword false) =
                some ((s.goto conn store (.pairStore key pairingCode keys)).respond conn store
                  (.paired false)) := by
            simp only [daemonMachine, DaemonState.step, hstore]
            rfl
          simp only [Machine.final, Machine.trace, hread, Option.isNone_some, hwrite,
            addPublicKey, hload]
          exact ⟨rfl, rfl⟩
      | none =>
          have hwrite : (daemonMachine dalek).step
              (s.goto conn store (.pairStore key pairingCode keys)) (conn, .setPassword true) =
                some (DaemonState.respond { s.goto conn store (.pairStore key pairingCode keys) with
                  vault := some (encodeKeys (withKey keys key)) } conn store (.paired true)) := by
            simp only [daemonMachine, DaemonState.step, hstore]
            rfl
          simp only [Machine.final, Machine.trace, hread, Option.isNone_none, hwrite,
            addPublicKey, hload]
          exact ⟨rfl, rfl⟩

end OpenBioUnlock.Daemon

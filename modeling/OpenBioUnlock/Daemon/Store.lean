import Mathlib.Data.List.Nodup
import OpenBioUnlock.Daemon.Crypto
import OpenBioUnlock.Codec.Lines

/-!
# The key store

`daemon/src/store.rs`: the paired public keys, kept in one text of the credential
vault, a line of hex text for each key.  `addPublicKey` reads the text and writes
it back; the two accesses of the vault are apart, and what lies between them is
the pure `withKey`.

`load_encodeKeys` is the round trip: what is written is read back.
-/

namespace OpenBioUnlock.Daemon

open Codec

inductive FromHexError where
  | invalid
  | invalidStringLength
  deriving DecidableEq

/-- `hex::decode`. -/
def decodeHex (text : ByteString) : Except FromHexError ByteString :=
  match hexDecode text with
  | some bytes => .ok bytes
  | none => .error .invalid

/-- A line of the stored text as a key. -/
def parseKey (line : ByteString) : Except FromHexError (ByteArr 32) :=
  match decodeHex line with
  | .error error => .error error
  | .ok bytes =>
      match ByteArr.ofSlice? 32 bytes with
      | some key => .ok key
      | none => .error .invalidStringLength

/-- `load_public_keys`, on what `get_password` gave: `none` is a failure, of
whatever kind. -/
def loadPublicKeys : Option ByteString → Except FromHexError (List (ByteArr 32))
  | none => .ok []
  | some value => ((lines value).filter (· ≠ [])).mapM parseKey

/-- The list with the key, at its end if it is new. -/
def withKey (keys : List (ByteArr 32)) (key : ByteArr 32) : List (ByteArr 32) :=
  if key ∈ keys then keys else keys ++ [key]

/-- The text `set_password` is called with. -/
def encodeKeys (keys : List (ByteArr 32)) : ByteString :=
  [10].intercalate (keys.map fun key => hexEncode key.1)

/-! ## Reading back what was written -/

theorem mem_hexEncode {bytes : ByteString} {c : UInt8} (h : c ∈ hexEncode bytes) :
    ∃ value < 16, c = hexDigit value := by
  induction bytes with
  | nil => simp at h
  | cons b rest ih =>
      rw [hexEncode_cons] at h
      rcases List.mem_cons.mp h with rfl | h
      · exact ⟨_, div_lt_sixteen b, rfl⟩
      · rcases List.mem_cons.mp h with rfl | h
        · exact ⟨_, mod_lt_sixteen b, rfl⟩
        · exact ih h

theorem lt_hexDigit {value : UInt8} (h : value < 16) : 47 < hexDigit value := by
  have hlt := UInt8.lt_iff_toNat_lt.mp h
  have h16 : (16 : UInt8).toNat = 16 := rfl
  rw [h16] at hlt
  rw [hexDigit, UInt8.lt_iff_toNat_lt]
  split
  · rw [UInt8.toNat_add]
    simp
    omega
  · rw [UInt8.toNat_add]
    simp
    omega

/-- A stored line is not empty and has no line break. -/
theorem hexEncode_line (key : ByteArr 32) :
    hexEncode key.1 ≠ [] ∧ 10 ∉ hexEncode key.1 ∧ 13 ∉ hexEncode key.1 := by
  refine ⟨?_, ?_, ?_⟩
  · intro h
    have hlen := hexEncode_length key.1
    rw [h, key.2] at hlen
    cases hlen
  · intro h
    obtain ⟨value, hvalue, heq⟩ := mem_hexEncode h
    exact absurd (heq ▸ lt_hexDigit hvalue) (by decide)
  · intro h
    obtain ⟨value, hvalue, heq⟩ := mem_hexEncode h
    exact absurd (heq ▸ lt_hexDigit hvalue) (by decide)

@[simp] theorem parseKey_hexEncode (key : ByteArr 32) : parseKey (hexEncode key.1) = .ok key := by
  have hslice : ByteArr.ofSlice? 32 key.1 = some key := ByteArr.ofSlice?_eq_some.mpr rfl
  simp only [parseKey, decodeHex, hexDecode_encode, hslice]

theorem mapM_parseKey (keys : List (ByteArr 32)) :
    (keys.map fun key => hexEncode key.1).mapM parseKey = .ok keys := by
  induction keys with
  | nil => rfl
  | cons key rest ih =>
      rw [List.map_cons, List.mapM_cons, ih, parseKey_hexEncode]
      rfl

/-- **What is written is read back.** -/
theorem load_encodeKeys (keys : List (ByteArr 32)) :
    loadPublicKeys (some (encodeKeys keys)) = .ok keys := by
  have hline : ∀ line ∈ keys.map fun key => hexEncode key.1,
      line ≠ [] ∧ 10 ∉ line ∧ 13 ∉ line := by
    intro line hline
    obtain ⟨key, -, rfl⟩ := List.mem_map.mp hline
    exact hexEncode_line key
  have hlines : lines (encodeKeys keys) = keys.map fun key => hexEncode key.1 :=
    lines_intercalate hline
  have hfilter : (keys.map fun key => hexEncode key.1).filter (· ≠ []) =
      keys.map fun key => hexEncode key.1 :=
    List.filter_eq_self.mpr fun line hmem => decide_eq_true (hline line hmem).1
  rw [loadPublicKeys, hlines, hfilter, mapM_parseKey]

theorem mem_withKey {keys : List (ByteArr 32)} {key k : ByteArr 32} :
    k ∈ withKey keys key ↔ k ∈ keys ∨ k = key := by
  unfold withKey
  split
  · rename_i hmem
    constructor
    · exact Or.inl
    · rintro (h | rfl)
      · exact h
      · exact hmem
  · simp

theorem withKey_nodup {keys : List (ByteArr 32)} (h : keys.Nodup) (key : ByteArr 32) :
    (withKey keys key).Nodup := by
  unfold withKey
  split
  · exact h
  · rename_i hnew
    rw [← List.concat_eq_append]
    exact List.Nodup.concat hnew h

end OpenBioUnlock.Daemon

import OpenBioUnlock.Daemon.Vault

/-!
# The list of keys

The text in the vault stands for a list of keys: a line of hex text each, in upper or
lower case, with blank lines and CRLF allowed.  `add_public_key` reads the list, puts
the new key at its end unless it is there, and writes all of it.  Here the vault returns
the value set last, and fails only for want of one.

`key_store_representation` says what the text stands for after an addition, and after
any sequence of them from an empty vault.
-/

namespace OpenBioUnlock.Daemon

open Codec

/-! ## Each once, in order -/

section Once

variable {α : Type} [DecidableEq α] {added keys : List α} {k : α}

/-- `keys` has the members of `added`, each once, in the order of their first
occurrences. -/
structure ListsOnce (added keys : List α) : Prop where
  nodup : keys.Nodup
  mem : ∀ k, k ∈ keys ↔ k ∈ added
  ordered : keys.Pairwise fun a b => added.idxOf a < added.idxOf b

theorem ListsOnce.nil : ListsOnce ([] : List α) [] :=
  ⟨List.nodup_nil, by simp, List.Pairwise.nil⟩

/-- What is appended changes no first occurrence. -/
theorem ListsOnce.ordered_append (h : ListsOnce added keys) (k : α) :
    keys.Pairwise fun a b => (added ++ [k]).idxOf a < (added ++ [k]).idxOf b := by
  refine h.ordered.imp_of_mem fun {a b} ha hb hab => ?_
  rw [List.idxOf_append_of_mem ((h.mem a).mp ha), List.idxOf_append_of_mem ((h.mem b).mp hb)]
  exact hab

/-- A repetition adds nothing. -/
theorem ListsOnce.repeated (h : ListsOnce added keys) (hk : k ∈ keys) :
    ListsOnce (added ++ [k]) keys where
  nodup := h.nodup
  mem k' := by
    rw [List.mem_append, List.mem_singleton, h.mem]
    constructor
    · exact Or.inl
    · rintro (hk' | rfl)
      · exact hk'
      · exact (h.mem _).mp hk
  ordered := h.ordered_append k

/-- A new member comes last. -/
theorem ListsOnce.new (h : ListsOnce added keys) (hk : k ∉ keys) :
    ListsOnce (added ++ [k]) (keys ++ [k]) where
  nodup := by
    rw [← List.concat_eq_append]
    exact List.Nodup.concat hk h.nodup
  mem k' := by rw [List.mem_append, List.mem_append, h.mem]
  ordered := by
    refine List.pairwise_append.mpr ⟨h.ordered_append k, List.pairwise_singleton _ _, ?_⟩
    intro a ha b hb
    rw [List.mem_singleton] at hb
    have hmem := (h.mem a).mp ha
    have hnew : k ∉ added := fun hk' => hk ((h.mem k).mpr hk')
    rw [hb, List.idxOf_append_of_mem hmem, List.idxOf_append_of_notMem hnew]
    have hlt := List.idxOf_lt_length_of_mem hmem
    omega

end Once

/-- `withKey` keeps a list that has each key once. -/
theorem ListsOnce.withKey {added keys : List (ByteArr 32)} (h : ListsOnce added keys)
    (key : ByteArr 32) : ListsOnce (added ++ [key]) (withKey keys key) := by
  unfold Daemon.withKey
  split
  · rename_i hmem
    exact h.repeated hmem
  · rename_i hnew
    exact h.new hnew

/-! ## The store -/

/-- `load_public_keys` on a vault that fails only for want of a value. -/
def loadEntry (entry : Option ByteString) : Except FromHexError (List (ByteArr 32)) :=
  loadPublicKeys (entryPassword entry none).toOption

/-- `add_public_key` on such a vault. -/
def addToEntry (entry : Option ByteString) (key : ByteArr 32) :
    Option ByteString × Except StoreError Unit :=
  addPublicKey entry key none none

/-- The vault after additions, one after the other. -/
def addAll (entry : Option ByteString) (added : List (ByteArr 32)) : Option ByteString :=
  added.foldl (fun entry key => (addToEntry entry key).1) entry

variable {entry : Option ByteString} {keys : List (ByteArr 32)}

/-- **What an addition does**, to a text that is read. -/
theorem addToEntry_of_load (h : loadEntry entry = .ok keys) (key : ByteArr 32) :
    addToEntry entry key = (some (encodeKeys (withKey keys key)), .ok ()) ∧
      loadEntry (addToEntry entry key).1 = .ok (withKey keys key) := by
  have hadd : addToEntry entry key = (some (encodeKeys (withKey keys key)), .ok ()) := by
    rw [addToEntry, addPublicKey, ← loadEntry, h]
  rw [hadd]
  exact ⟨rfl, load_encodeKeys (withKey keys key)⟩

/-- To a text that is not. -/
theorem addToEntry_of_error {error : FromHexError} (h : loadEntry entry = .error error)
    (key : ByteArr 32) : addToEntry entry key = (entry, .error (.encoding error)) := by
  rw [addToEntry, addPublicKey, ← loadEntry, h]

/-- **After any additions to an empty vault** the keys are there once each, and each
addition succeeded. -/
theorem addAll_listsOnce (added : List (ByteArr 32)) :
    ∃ keys, loadEntry (addAll none added) = .ok keys ∧ ListsOnce added keys := by
  induction added using List.reverseRecOn with
  | nil => exact ⟨[], rfl, .nil⟩
  | append_singleton added key ih =>
      obtain ⟨keys, hload, honce⟩ := ih
      refine ⟨withKey keys key, ?_, honce.withKey key⟩
      rw [addAll, List.foldl_append]
      exact (addToEntry_of_load hload key).2

/-- **The key store is a list without repetitions**: what an addition makes of a stored
text, and what is loaded after any sequence of additions. -/
theorem key_store_representation :
    (∀ value keys key, loadEntry (some value) = .ok keys →
        (addToEntry (some value) key).2 = .ok () ∧
          loadEntry (addToEntry (some value) key).1 =
            .ok (if key ∈ keys then keys else keys ++ [key])) ∧
      (∀ value error key, loadEntry (some value) = .error error →
        ∃ failure, addToEntry (some value) key = (some value, .error failure)) ∧
      ∀ added : List (ByteArr 32), ∃ keys,
        loadEntry (addAll none added) = .ok keys ∧ ListsOnce added keys := by
  refine ⟨fun value keys key h => ?_, fun value error key h => ?_, addAll_listsOnce⟩
  · obtain ⟨hadd, hload⟩ := addToEntry_of_load h key
    exact ⟨by rw [hadd], hload⟩
  · exact ⟨_, addToEntry_of_error h key⟩

/-- A text with an upper-case key and a blank line, and one that is not hex. -/
def storedText : ByteString :=
  (List.replicate 64 70) ++ ascii "\r\n\n"

/-- The key it holds is not added twice; the other is left alone. -/
theorem key_store_representation_sample :
    loadEntry (addToEntry (some storedText) (.replicate 32 255)).1 = .ok [.replicate 32 255] ∧
      (∃ failure, addToEntry (some (ascii "zz")) (.replicate 32 1) =
        (some (ascii "zz"), .error failure)) := by
  constructor
  · have hload : loadEntry (some storedText) = .ok [.replicate 32 255] := rfl
    exact (key_store_representation.1 storedText _ (.replicate 32 255) hload).2
  · exact key_store_representation.2.1 (ascii "zz") .invalid _ rfl

end OpenBioUnlock.Daemon

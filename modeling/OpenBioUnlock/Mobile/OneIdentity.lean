import OpenBioUnlock.Interop.Envelope
import OpenBioUnlock.Mobile.Identity

/-!
# One identity

The law of `initialize` is `OneIdentity`: whenever it returns, both key pairs are set
and are those of the storage, and so is every key and signature the phone gives out.

It fails in two ways.  The guard of `initialize` looks at the first key pair only, so a
call can slip through while the second is missing or not yet written; and two calls
can find the same seed missing and generate it twice.  `Orderly` says that a step does
neither, and `one_identity` that nothing else goes wrong: in a run of orderly steps
the law holds, whatever fails and however the calls overlap.
-/

namespace OpenBioUnlock.Mobile

open Desktop (Bytes)
open Runs

/-! ## The law -/

/-- The key pair is set, and is the one that the storage encodes. -/
def Synced (service : CryptoService) (storage : Algorithm → Option DString)
    (a : Algorithm) : Prop :=
  ∃ pair, service.pairOf a = some pair ∧ storedPair storage a = some pair

/-- **The law** of the calls that led to `s`. -/
structure OneIdentity (dart : DartLibraries) (tr : List IdentityEntry) (s : Identity) : Prop where
  initialized : ∀ x ∈ tr, x.out.initialized = true →
    ∀ a, Synced x.post.service x.post.storage a
  publicKeys : ∀ x ∈ tr, ∀ a key, x.out.answer = some (.publicKey a key) →
    ∃ pair, storedPair s.storage a = some pair ∧ key = Identity.publicKeyOf dart a pair
  signatures : ∀ x ∈ tr, ∀ payload signature,
    x.out.answer = some (.signature payload signature) →
      ∃ pair, storedPair s.storage .ed25519 = some pair ∧ signature = dart.sign pair payload
  present : ∀ x ∈ tr, x.out.answer ≠ some (.thrown .nullCheck)

/-- A task that found the seed missing, and has not written one. -/
def Generates (a : Algorithm) : Phase → Prop
  | .read b none => b = a
  | .generating b => b = a
  | .extracting b _ => b = a
  | .writing b _ => b = a
  | _ => False

/-- The call runs `initialize`. -/
def Method.starts : Method → Bool
  | .signChallenge nonce _ => nonce.length = 32
  | _ => true

/-- A step that keeps the half-finished apart: no call finds the first key pair set and the
second missing or unwritten, and no read finds a seed missing that another task is
about to write. -/
structure Orderly (x : IdentityEntry) : Prop where
  calls : ∀ method, x.act.2 = .call method → method.starts = true →
    x.pre.service.keyPair ≠ none →
      x.pre.service.exchangeKeyPair ≠ none ∧ x.pre.storage .x25519 ≠ none
  reads : ∀ t a, x.act.2 = .storage → x.pre.tasks x.act.1 = some t → t.phase = .reading a →
    x.pre.storage a = none →
      ∀ id t', x.pre.tasks id = some t' → ¬ Generates a t'.phase

/-! ## The invariant -/

/-- In the second half of `initialize` the first key pair is there. -/
def Earlier (service : CryptoService) (storage : Algorithm → Option DString)
    (a : Algorithm) : Prop :=
  a = .x25519 → Synced service storage .ed25519

/-- What a phase says of the fields and the storage. -/
def PhaseOk (service : CryptoService) (storage : Algorithm → Option DString) : Phase → Prop
  | .reading a => Earlier service storage a
  | .read a none => storage a = none ∧ Earlier service storage a
  | .read a (some encodedSeed) => storage a = some encodedSeed ∧ Earlier service storage a
  | .generating a => storage a = none ∧ Earlier service storage a
  | .extracting a pair => storage a = none ∧ Earlier service storage a ∧
      (a = .x25519 → service.exchangeKeyPair = some pair)
  | .writing a pair => storage a = none ∧ Earlier service storage a ∧
      (a = .x25519 → service.exchangeKeyPair = some pair)
  | .written a pair => storedPair storage a = some pair ∧ Earlier service storage a ∧
      (a = .x25519 → service.exchangeKeyPair = some pair)
  | .rebuilding a pair => storedPair storage a = some pair ∧ Earlier service storage a
  | .initialized => ∀ a, Synced service storage a
  | .authenticating => ∀ a, Synced service storage a
  | .extractingKey a pair => storedPair storage a = some pair
  | .signing pair _ => storedPair storage .ed25519 = some pair
  | .agreeing _ _ => True

/-- The fields fit the storage, and every task its phase; but for the tasks left out. -/
structure Consistent (out : Set ℕ) (s : Identity) : Prop where
  signing : ∀ pair, s.service.keyPair = some pair → storedPair s.storage .ed25519 = some pair
  exchange : ∀ pair, s.service.exchangeKeyPair = some pair → s.storage .x25519 ≠ none →
    storedPair s.storage .x25519 = some pair
  phases : ∀ id t, id ∉ out → s.tasks id = some t → PhaseOk s.service s.storage t.phase
  alone : ∀ a id id' t t', id ∉ out → id' ∉ out → s.tasks id = some t → s.tasks id' = some t' →
    Generates a t.phase → Generates a t'.phase → id = id'

/-- No task but this one generates the seed. -/
def OnlyGenerator (s : Identity) (id : ℕ) (a : Algorithm) : Prop :=
  ∀ id' t, id' ≠ id → s.tasks id' = some t → ¬ Generates a t.phase

theorem Consistent.leave {s : Identity} (h : Consistent ∅ s) (id : ℕ) : Consistent {id} s where
  signing := h.signing
  exchange := h.exchange
  phases id' t _ := h.phases id' t (by simp)
  alone a id' id'' t t' _ _ := h.alone a id' id'' t t' (by simp) (by simp)

theorem Consistent.onlyGenerator {s : Identity} (h : Consistent ∅ s) {id : ℕ} {t : Task}
    {a : Algorithm} (ht : s.tasks id = some t) (hgen : Generates a t.phase) :
    OnlyGenerator s id a := by
  intro id' t' hid ht' hgen'
  exact hid (h.alone a id' id t' t (by simp) (by simp) ht' ht hgen' hgen)

/-! ## Effects -/

theorem storedPair_none {storage : Algorithm → Option DString} {a : Algorithm}
    (h : storage a = none) : storedPair storage a = none := by
  rw [storedPair, h, Option.bind_none]

theorem storedPair_congr {storage storage' : Algorithm → Option DString} {a : Algorithm}
    (h : storage' a = storage a) : storedPair storage' a = storedPair storage a := by
  rw [storedPair, h, storedPair]

/-- A seed that `_hex` wrote is read back. -/
theorem seedOf_hex (a : Algorithm) (pair : Bytes 32) : seedOf a (hex pair.1) = .ok pair := by
  have hread : decodeHex (hex pair.1) = .ok pair.1 := by rw [decodeHex, fromHex_hex]
  simp only [seedOf, hread, bind, Except.bind, pair.2, dif_pos]

/-- What a phase says stays true when stored seeds and synced pairs do, and when what the
task itself relies on is left alone. -/
theorem PhaseOk.frame {service service' : CryptoService}
    {storage storage' : Algorithm → Option DString} {p : Phase} (h : PhaseOk service storage p)
    (hstored : ∀ a encodedSeed, storage a = some encodedSeed → storage' a = some encodedSeed)
    (hsynced : ∀ a, Synced service storage a → Synced service' storage' a)
    (hgen : ∀ a, Generates a p → storage' a = storage a ∧
      (a = .x25519 → service'.exchangeKeyPair = service.exchangeKeyPair))
    (hwritten : ∀ pair, p = .written .x25519 pair →
      service'.exchangeKeyPair = service.exchangeKeyPair) : PhaseOk service' storage' p := by
  have hpair : ∀ a pair, storedPair storage a = some pair → storedPair storage' a = some pair := by
    intro a pair hp
    cases hs : storage a with
    | none => rw [storedPair_none hs] at hp; cases hp
    | some encodedSeed => rw [storedPair_congr ((hstored a _ hs).trans hs.symm), hp]
  have hearlier : ∀ a, Earlier service storage a → Earlier service' storage' a :=
    fun a he ha => hsynced _ (he ha)
  cases p with
  | reading a => exact hearlier a h
  | read a encodedSeed =>
      cases encodedSeed with
      | none => exact ⟨(hgen a rfl).1.trans h.1, hearlier a h.2⟩
      | some encodedSeed => exact ⟨hstored a _ h.1, hearlier a h.2⟩
  | generating a => exact ⟨(hgen a rfl).1.trans h.1, hearlier a h.2⟩
  | extracting a pair =>
      exact ⟨(hgen a rfl).1.trans h.1, hearlier a h.2.1,
        fun ha => ((hgen a rfl).2 ha).trans (h.2.2 ha)⟩
  | writing a pair =>
      exact ⟨(hgen a rfl).1.trans h.1, hearlier a h.2.1,
        fun ha => ((hgen a rfl).2 ha).trans (h.2.2 ha)⟩
  | written a pair =>
      refine ⟨hpair a pair h.1, hearlier a h.2.1, fun ha => ?_⟩
      subst ha
      exact (hwritten pair rfl).trans (h.2.2 rfl)
  | rebuilding a pair => exact ⟨hpair a pair h.1, hearlier a h.2⟩
  | initialized => exact fun a => hsynced a (h a)
  | authenticating => exact fun a => hsynced a (h a)
  | extractingKey a pair => exact hpair a pair h
  | signing pair payload => exact hpair _ pair h
  | agreeing pair remote => exact trivial

/-- A task that generates a seed has found none. -/
theorem PhaseOk.none_of_generates {service : CryptoService}
    {storage : Algorithm → Option DString} {p : Phase} {a : Algorithm}
    (h : PhaseOk service storage p) (hgen : Generates a p) : storage a = none := by
  cases p with
  | read b encodedSeed =>
      cases encodedSeed with
      | none =>
          obtain rfl : b = a := hgen
          exact h.1
      | some encodedSeed => exact hgen.elim
  | generating b | extracting b pair | writing b pair =>
      obtain rfl : b = a := hgen
      exact h.1
  | _ => exact hgen.elim

section Effects

variable {s : Identity} {id : ℕ} {a : Algorithm} {pair : Bytes 32}

/-- The seed of a new key pair is written. -/
theorem Consistent.store (h : Consistent {id} s) (hnone : s.storage a = none)
    (honly : OnlyGenerator s id a)
    (hset : a = .x25519 → s.service.exchangeKeyPair = some pair) :
    Consistent {id} (s.store a (hex pair.1)) := by
  have hsame : ∀ b, b ≠ a → (s.store a (hex pair.1)).storage b = s.storage b := fun b hb =>
    Function.update_of_ne hb _ _
  have hpair : storedPair (s.store a (hex pair.1)).storage a = some pair := by
    simp only [storedPair, Identity.store, Function.update_self, Option.bind_some, seedOf_hex]
    rfl
  refine ⟨?_, ?_, ?_, h.alone⟩
  · intro p hp
    have hold := h.signing p hp
    by_cases ha : Algorithm.ed25519 = a
    · subst ha
      rw [storedPair_none hnone] at hold
      cases hold
    · rw [storedPair_congr (hsame _ ha), hold]
  · intro p hp hne
    by_cases ha : Algorithm.x25519 = a
    · subst ha
      have heq : s.service.exchangeKeyPair = some p := hp
      rw [hset rfl, Option.some.injEq] at heq
      rw [← heq, hpair]
    · rw [hsame _ ha] at hne
      rw [storedPair_congr (hsame _ ha), h.exchange p hp hne]
  · intro id' t hid ht
    refine (h.phases id' t hid ht).frame ?_ ?_ ?_ fun _ _ => rfl
    · intro b encodedSeed hb
      have hne : b ≠ a := by
        rintro rfl
        rw [hnone] at hb
        cases hb
      rw [hsame b hne, hb]
    · rintro b ⟨p, hset', hstored⟩
      have hne : b ≠ a := by
        rintro rfl
        rw [storedPair_none hnone] at hstored
        cases hstored
      exact ⟨p, hset', by rw [storedPair_congr (hsame b hne), hstored]⟩
    · intro b hgen
      have hne : b ≠ a := by
        rintro rfl
        exact honly id' t hid ht hgen
      exact ⟨hsame b hne, fun _ => rfl⟩

/-- A key pair of the storage is assigned. -/
theorem Consistent.assign (h : Consistent {id} s) (hpair : storedPair s.storage a = some pair) :
    Consistent {id} (s.withPair a pair) := by
  refine ⟨?_, ?_, ?_, h.alone⟩
  · intro p hp
    cases a with
    | ed25519 => exact hpair.trans hp
    | x25519 => exact h.signing p hp
  · intro p hp hne
    cases a with
    | ed25519 => exact h.exchange p hp hne
    | x25519 => exact hpair.trans hp
  · intro id' t hid ht
    have hok := h.phases id' t hid ht
    refine hok.frame (fun _ _ hb => hb) ?_ ?_ ?_
    · rintro b ⟨p, hset, hstored⟩
      by_cases hb : b = a
      · subst hb
        exact ⟨pair, by cases b <;> rfl, hpair⟩
      · refine ⟨p, ?_, hstored⟩
        rw [← hset]
        cases a <;> cases b <;> first | exact absurd rfl hb | rfl
    · intro b hgen
      refine ⟨rfl, fun hb => ?_⟩
      subst hb
      cases a with
      | ed25519 => rfl
      | x25519 =>
          rw [storedPair_none (hok.none_of_generates hgen)] at hpair
          cases hpair
    · intro p hp
      rw [hp] at hok
      cases a with
      | ed25519 => rfl
      | x25519 =>
          rw [hok.1, Option.some.injEq] at hpair
          subst hpair
          exact (hok.2.2 rfl).symm

/-- A new exchange key pair is assigned, its seed not yet written. -/
theorem Consistent.assignFresh (h : Consistent {id} s) (hnone : s.storage .x25519 = none)
    (honly : OnlyGenerator s id .x25519) : Consistent {id} (s.withPair .x25519 pair) := by
  refine ⟨h.signing, fun p hp hne => absurd hnone hne, ?_, h.alone⟩
  intro id' t hid ht
  have hok := h.phases id' t hid ht
  refine hok.frame (fun _ _ hb => hb) ?_ ?_ ?_
  · rintro b ⟨p, hset, hstored⟩
    cases b with
    | ed25519 => exact ⟨p, hset, hstored⟩
    | x25519 =>
        rw [storedPair_none hnone] at hstored
        cases hstored
  · intro b hgen
    refine ⟨rfl, fun hb => ?_⟩
    subst hb
    exact absurd hgen (honly id' t hid ht)
  · intro p hp
    rw [hp] at hok
    have hstored := hok.1
    rw [storedPair_none hnone] at hstored
    cases hstored

/-- A session key is assigned. -/
theorem Consistent.withSession (h : Consistent {id} s) (key : Option (Bytes 32)) :
    Consistent {id} { s with service := { s.service with sessionKey := key } } := by
  refine ⟨h.signing, h.exchange, ?_, h.alone⟩
  intro id' t hid ht
  refine (h.phases id' t hid ht).frame (fun _ _ hb => hb) ?_ (fun _ _ => ⟨rfl, fun _ => rfl⟩)
    fun _ _ => rfl
  rintro b ⟨p, hset, hstored⟩
  exact ⟨p, by rw [← hset]; cases b <;> rfl, hstored⟩

/-- The tasks after one went on: it and the others. -/
theorem goto_tasks {method : Method} {phase : Phase} {id' : ℕ} {t : Task}
    (h : (s.goto id method phase).tasks id' = some t) :
    id' = id ∧ t = ⟨method, phase⟩ ∨ id' ≠ id ∧ s.tasks id' = some t := by
  change Function.update s.tasks id (some ⟨method, phase⟩) id' = some t at h
  by_cases hid : id' = id
  · subst hid
    rw [Function.update_self, Option.some.injEq] at h
    exact .inl ⟨rfl, h.symm⟩
  · rw [Function.update_of_ne hid] at h
    exact .inr ⟨hid, h⟩

theorem finish_tasks {id' : ℕ} {t : Task} (h : (s.finish id).tasks id' = some t) :
    id' ≠ id ∧ s.tasks id' = some t := by
  change Function.update s.tasks id none id' = some t at h
  by_cases hid : id' = id
  · subst hid
    rw [Function.update_self] at h
    cases h
  · rw [Function.update_of_ne hid] at h
    exact ⟨hid, h⟩

/-- The task goes to a phase that fits. -/
theorem Consistent.goto (h : Consistent {id} s) {method : Method} {phase : Phase}
    (hok : PhaseOk s.service s.storage phase)
    (honly : ∀ a, Generates a phase → OnlyGenerator s id a) :
    Consistent ∅ (s.goto id method phase) := by
  refine ⟨h.signing, h.exchange, ?_, ?_⟩
  · intro id' t _ ht
    obtain ⟨-, rfl⟩ | ⟨hid, ht⟩ := goto_tasks ht
    · exact hok
    · exact h.phases id' t hid ht
  · intro b id' id'' t t' _ _ ht ht' hgen hgen'
    obtain ⟨hid, rfl⟩ | ⟨hid, ht⟩ := goto_tasks ht
    · obtain ⟨hid', -⟩ | ⟨hid', ht'⟩ := goto_tasks ht'
      · rw [hid, hid']
      · exact absurd hgen' (honly b hgen id'' t' hid' ht')
    · obtain ⟨-, rfl⟩ | ⟨hid', ht'⟩ := goto_tasks ht'
      · exact absurd hgen (honly b hgen' id' t hid ht)
      · exact h.alone b id' id'' t t' hid hid' ht ht' hgen hgen'

/-- The task ends. -/
theorem Consistent.finish (h : Consistent {id} s) : Consistent ∅ (s.finish id) := by
  refine ⟨h.signing, h.exchange, ?_, ?_⟩
  · intro id' t _ ht
    exact h.phases id' t (finish_tasks ht).1 (finish_tasks ht).2
  · intro b id' id'' t t' _ _ ht ht'
    exact h.alone b id' id'' t t' (finish_tasks ht).1 (finish_tasks ht').1 (finish_tasks ht).2
      (finish_tasks ht').2

end Effects

/-! ## One step -/

/-- What is stored stays. -/
def Kept (storage storage' : Algorithm → Option DString) : Prop :=
  ∀ a pair, storedPair storage a = some pair → storedPair storage' a = some pair

/-- What the law asks of a step's output. -/
structure OutputOk (dart : DartLibraries) (service : CryptoService)
    (storage : Algorithm → Option DString) (out : IdentityOutput) : Prop where
  initialized : out.initialized = true → ∀ a, Synced service storage a
  publicKey : ∀ a key, out.answer = some (.publicKey a key) →
    ∃ pair, storedPair storage a = some pair ∧ key = Identity.publicKeyOf dart a pair
  signature : ∀ payload signature, out.answer = some (.signature payload signature) →
    ∃ pair, storedPair storage .ed25519 = some pair ∧ signature = dart.sign pair payload
  present : out.answer ≠ some (.thrown .nullCheck)

/-- The step keeps the invariant, and gives out what it may. -/
def Sound (dart : DartLibraries) (storage : Algorithm → Option DString)
    (r : Option (Identity × IdentityOutput)) : Prop :=
  ∀ s' out, r = some (s', out) → Consistent ∅ s' ∧ Kept storage s'.storage ∧
    OutputOk dart s'.service s'.storage out

section Step

variable {dart : DartLibraries} {s : Identity} {id : ℕ} {method : Method}
variable {storage : Algorithm → Option DString}

theorem Kept.refl (storage : Algorithm → Option DString) : Kept storage storage :=
  fun _ _ h => h

theorem sound_none : Sound dart storage none := by
  intro s' out h
  cases h

theorem sound_awaits (hkept : Kept storage s.storage) (h : Consistent {id} s) {phase : Phase}
    (hok : PhaseOk s.service s.storage phase)
    (honly : ∀ a, Generates a phase → OnlyGenerator s id a) :
    Sound dart storage (s.awaits id method phase) := by
  rintro s' out heq
  simp only [Identity.awaits, Option.some.injEq, Prod.mk.injEq] at heq
  obtain ⟨rfl, rfl⟩ := heq
  exact ⟨h.goto hok honly, hkept, by simp, by simp, by simp, by simp⟩

theorem sound_returns (hkept : Kept storage s.storage) (h : Consistent {id} s)
    (hsynced : ∀ a, Synced s.service s.storage a) :
    Sound dart storage (s.returns id method) := by
  rintro s' out heq
  simp only [Identity.returns, Option.some.injEq, Prod.mk.injEq] at heq
  obtain ⟨rfl, rfl⟩ := heq
  exact ⟨h.goto hsynced fun _ => False.elim, hkept, fun _ => hsynced, by simp, by simp, by simp⟩

theorem sound_answers (hkept : Kept storage s.storage) (h : Consistent {id} s) {answer : Answer}
    (hout : OutputOk dart s.service s.storage ⟨false, some answer⟩) :
    Sound dart storage (s.answers id answer) := by
  rintro s' out heq
  simp only [Identity.answers, Option.some.injEq, Prod.mk.injEq] at heq
  obtain ⟨rfl, rfl⟩ := heq
  exact ⟨h.finish, hkept, hout⟩

theorem sound_throws (hkept : Kept storage s.storage) (h : Consistent {id} s) {e : DartError}
    (he : e ≠ .nullCheck) : Sound dart storage (s.throws id e) :=
  sound_answers hkept h ⟨by simp, by simp, by simp, by simpa using he⟩

theorem decodeHex_error {text : DString} {e : DartError} (h : decodeHex text = .error e) :
    e ≠ .nullCheck := by
  unfold decodeHex at h
  split at h
  · cases h
  · cases h
    simp

/-- What follows a decoding fails as the decoding does, or on its own. -/
theorem decodeHex_bind_error {β : Type} {text : DString} {next : List UInt8 → Except DartError β}
    {e : DartError} (hnext : ∀ bytes e, next bytes = .error e → e ≠ .nullCheck)
    (h : (decodeHex text >>= next) = .error e) : e ≠ .nullCheck := by
  cases hread : decodeHex text with
  | error e' =>
      rw [hread] at h
      cases h
      exact decodeHex_error hread
  | ok bytes =>
      rw [hread] at h
      exact hnext bytes e h

theorem seedOf_error {a : Algorithm} {text : DString} {e : DartError}
    (h : seedOf a text = .error e) : e ≠ .nullCheck := by
  refine decodeHex_bind_error (fun bytes e he => ?_) h
  split at he
  · cases he
  · cases he
    simp

theorem remoteKey_error {text : DString} {e : DartError} (h : remoteKey text = .error e) :
    e ≠ .nullCheck := by
  refine decodeHex_bind_error (fun bytes e he => ?_) h
  split at he
  · cases he
  · cases he
    simp

/-- The code after a key pair of `initialize`, when the pair is set as it is stored. -/
theorem sound_next (hkept : Kept storage s.storage) (h : Consistent {id} s) {a : Algorithm}
    (hsynced : Synced s.service s.storage a) (hearlier : Earlier s.service s.storage a) :
    Sound dart storage (s.next id method a) := by
  cases a with
  | ed25519 => exact sound_awaits hkept h (fun _ => hsynced) fun _ => False.elim
  | x25519 =>
      refine sound_returns hkept h fun b => ?_
      cases b with
      | ed25519 => exact hearlier rfl
      | x25519 => exact hsynced

/-- **A method goes on** once both key pairs are set as they are stored. -/
theorem sound_proceed (h : Consistent {id} s) (hsynced : ∀ a, Synced s.service s.storage a) :
    Sound dart s.storage (s.proceed id method) := by
  obtain ⟨signing, hsigning, hstored⟩ := hsynced .ed25519
  obtain ⟨exchange, hexchange, hstored'⟩ := hsynced .x25519
  change s.service.keyPair = some signing at hsigning
  change s.service.exchangeKeyPair = some exchange at hexchange
  cases method with
  | publicKey =>
      simp only [Identity.proceed, hsigning]
      exact sound_awaits (.refl _) h hstored fun _ => False.elim
  | exchangePublicKey =>
      simp only [Identity.proceed, hexchange]
      exact sound_awaits (.refl _) h hstored' fun _ => False.elim
  | signChallenge nonce timestamp => exact sound_awaits (.refl _) h hsynced fun _ => False.elim
  | establishSession workstationKey =>
      simp only [Identity.proceed, hexchange]
      cases hremote : remoteKey workstationKey with
      | error e => exact sound_throws (.refl _) h (remoteKey_error hremote)
      | ok remote => exact sound_awaits (.refl _) h trivial fun _ => False.elim

/-- **A task goes on.** -/
theorem sound_resume (h : Consistent ∅ s) {phase : Phase} (ht : s.tasks id = some ⟨method, phase⟩)
    (fresh : Bytes 32) : Sound dart s.storage (s.resume id dart fresh method phase) := by
  have hout := h.leave id
  have hok : PhaseOk s.service s.storage phase := h.phases id _ (by simp) ht
  have honly : ∀ a, Generates a phase → OnlyGenerator s id a := fun a hgen =>
    h.onlyGenerator ht hgen
  cases phase with
  | reading a => exact sound_none
  | read a encodedSeed =>
      cases encodedSeed with
      | none => exact sound_awaits (.refl _) hout hok honly
      | some encodedSeed =>
          simp only [Identity.resume]
          cases hseed : seedOf a encodedSeed with
          | error e => exact sound_throws (.refl _) hout (seedOf_error hseed)
          | ok seed =>
              refine sound_awaits (.refl _) hout ⟨?_, hok.2⟩ fun _ => False.elim
              rw [storedPair, hok.1, Option.bind_some, hseed]
              rfl
  | generating a =>
      cases a with
      | ed25519 => exact sound_awaits (.refl _) hout ⟨hok.1, hok.2, by simp⟩ honly
      | x25519 =>
          refine sound_awaits (.refl _) (hout.assignFresh hok.1 (honly _ rfl))
            ⟨hok.1, hok.2, fun _ => rfl⟩ honly
  | extracting a pair => exact sound_awaits (.refl _) hout hok honly
  | writing a pair => exact sound_none
  | written a pair =>
      cases a with
      | ed25519 =>
          exact sound_next (.refl _) (hout.assign hok.1) ⟨pair, rfl, hok.1⟩ (by simp [Earlier])
      | x25519 =>
          have hsynced : Synced s.service s.storage .x25519 := ⟨pair, hok.2.2 rfl, hok.1⟩
          exact sound_next (.refl _) hout hsynced hok.2.1
  | rebuilding a pair =>
      refine sound_next (.refl _) (hout.assign hok.1) ⟨pair, by cases a <;> rfl, hok.1⟩ ?_
      intro ha
      subst ha
      exact hok.2 rfl
  | initialized => exact sound_proceed hout hok
  | authenticating => exact sound_none
  | extractingKey a pair =>
      refine sound_answers (.refl _) hout ⟨by simp, ?_, by simp, by simp⟩
      rintro b key heq
      simp only [Option.some.injEq, Answer.publicKey.injEq] at heq
      obtain ⟨rfl, rfl⟩ := heq
      exact ⟨pair, hok, rfl⟩
  | signing pair payload =>
      refine sound_answers (.refl _) hout ⟨by simp, by simp, ?_, by simp⟩
      rintro payload' signature heq
      simp only [Option.some.injEq, Answer.signature.injEq] at heq
      obtain ⟨rfl, rfl⟩ := heq
      exact ⟨pair, hok, rfl⟩
  | agreeing pair remote =>
      exact sound_answers (.refl _) (hout.withSession _) ⟨by simp, by simp, by simp, by simp⟩

/-- **The plugin carries out** a read or a write. -/
theorem sound_performStorage (h : Consistent ∅ s) {phase : Phase}
    (ht : s.tasks id = some ⟨method, phase⟩)
    (hreads : ∀ a, phase = .reading a → s.storage a = none →
      ∀ id t', s.tasks id = some t' → ¬ Generates a t'.phase) :
    Sound dart s.storage (s.performStorage id method phase) := by
  have hout := h.leave id
  have hok : PhaseOk s.service s.storage phase := h.phases id _ (by simp) ht
  cases phase with
  | reading a =>
      simp only [Identity.performStorage]
      cases hstored : s.storage a with
      | none =>
          refine sound_awaits (.refl _) hout ⟨hstored, hok⟩ ?_
          rintro b (rfl : a = b) id' t' _ ht'
          exact hreads a rfl hstored id' t' ht'
      | some encodedSeed => exact sound_awaits (.refl _) hout ⟨hstored, hok⟩ fun _ => False.elim
  | writing a pair =>
      have hgen := h.onlyGenerator ht (show Generates a (.writing a pair) from rfl)
      have hwritten := hout.store hok.1 hgen hok.2.2
      have hpair : storedPair (s.store a (hex pair.1)).storage a = some pair := by
        simp only [storedPair, Identity.store, Function.update_self, Option.bind_some, seedOf_hex]
        rfl
      have hkept : Kept s.storage (s.store a (hex pair.1)).storage := by
        intro b p hp
        have hne : b ≠ a := by
          rintro rfl
          rw [storedPair_none hok.1] at hp
          cases hp
        rw [← hp]
        exact storedPair_congr (Function.update_of_ne hne _ _)
      refine sound_awaits hkept hwritten ⟨hpair, ?_, hok.2.2⟩ fun _ => False.elim
      intro ha
      subst ha
      obtain ⟨p, hset, hp⟩ := hok.2.1 rfl
      exact ⟨p, hset, hkept _ _ hp⟩
  | _ => exact sound_none

/-- **The plugin fails.** -/
theorem sound_failStorage (h : Consistent ∅ s) (phase : Phase) :
    Sound dart s.storage (s.failStorage id phase) := by
  cases phase with
  | reading a => exact sound_throws (.refl _) (h.leave id) (by simp)
  | writing a pair => exact sound_throws (.refl _) (h.leave id) (by simp)
  | _ => exact sound_none

/-- **A signature is approved**, or not. -/
theorem sound_authenticated (h : Consistent ∅ s)
    (ht : s.tasks id = some ⟨method, .authenticating⟩) (approved : Option Bool) :
    Sound dart s.storage (s.authenticated id approved method) := by
  have hout := h.leave id
  have hsynced : ∀ a, Synced s.service s.storage a := h.phases id _ (by simp) ht
  obtain ⟨pair, hset, hstored⟩ := hsynced .ed25519
  change s.service.keyPair = some pair at hset
  cases method with
  | signChallenge nonce timestamp =>
      cases approved with
      | none => exact sound_throws (.refl _) hout (by simp)
      | some approved =>
          cases approved with
          | false => exact sound_throws (.refl _) hout (by simp)
          | true =>
              simp only [Identity.authenticated, hset]
              exact sound_awaits (.refl _) hout hstored fun _ => False.elim
  | _ => exact sound_none

/-- **A call begins.** -/
theorem sound_call (h : Consistent ∅ s)
    (hcalls : method.starts = true → s.service.keyPair ≠ none →
      s.service.exchangeKeyPair ≠ none ∧ s.storage .x25519 ≠ none) :
    Sound dart s.storage (s.call id method) := by
  have hstart : method.starts = true → Sound dart s.storage (s.initializePairs id method) := by
    intro hstarts
    rw [Identity.initializePairs]
    cases hset : s.service.keyPair with
    | none => exact sound_awaits (.refl _) (h.leave id) (by simp [PhaseOk, Earlier]) fun _ => False.elim
    | some signing =>
        obtain ⟨hexchange, hstored⟩ := hcalls hstarts (by simp [hset])
        obtain ⟨exchange, hexchange⟩ := Option.ne_none_iff_exists'.mp hexchange
        refine sound_returns (.refl _) (h.leave id) fun a => ?_
        cases a with
        | ed25519 => exact ⟨signing, hset, h.signing signing hset⟩
        | x25519 => exact ⟨exchange, hexchange, h.exchange exchange hexchange hstored⟩
  cases method with
  | signChallenge nonce timestamp =>
      rw [Identity.call]
      split
      · rename_i hlen
        exact hstart (by simpa [Method.starts] using hlen)
      · rintro s' out heq
        simp only [Option.some.injEq, Prod.mk.injEq] at heq
        obtain ⟨rfl, rfl⟩ := heq
        exact ⟨h, .refl _, by simp, by simp, by simp, by simp⟩
  | _ => exact hstart rfl

end Step

/-! ## Runs -/

/-- **Every orderly step is sound.** -/
theorem sound_step {dart : DartLibraries} {x : IdentityEntry}
    (hdoes : (identityMachine dart).Does x) (horderly : Orderly x) (h : Consistent ∅ x.pre) :
    Consistent ∅ x.post ∧ Kept x.pre.storage x.post.storage ∧
      OutputOk dart x.post.service x.post.storage x.out := by
  obtain ⟨s, ⟨id, event⟩, out, s'⟩ := x
  cases event with
  | call method =>
      simp only [Machine.Does, identityMachine] at hdoes
      split at hdoes
      · exact sound_call h (horderly.calls method rfl) s' out hdoes
      · cases hdoes
  | storage =>
      obtain ⟨⟨method, phase⟩, ht, hstep⟩ := Option.bind_eq_some_iff.mp hdoes
      exact sound_performStorage h ht (fun a hphase => horderly.reads _ a rfl ht hphase) s' out hstep
  | storageFails =>
      obtain ⟨⟨method, phase⟩, ht, hstep⟩ := Option.bind_eq_some_iff.mp hdoes
      exact sound_failStorage h phase s' out hstep
  | resume fresh =>
      obtain ⟨⟨method, phase⟩, ht, hstep⟩ := Option.bind_eq_some_iff.mp hdoes
      exact sound_resume h ht fresh s' out hstep
  | authenticate approved =>
      obtain ⟨⟨method, phase⟩, ht, hstep⟩ := Option.bind_eq_some_iff.mp hdoes
      simp only at hstep
      split at hstep
      · exact sound_authenticated h ht approved s' out hstep
      · cases hstep

theorem consistent_started (storage : Algorithm → Option DString) :
    Consistent ∅ (.started storage) := by
  refine ⟨?_, ?_, ?_, ?_⟩
  · intro pair h
    cases h
  · intro pair h
    cases h
  · intro id t _ h
    cases h
  · intro a id id' t t' _ _ h
    cases h

/-- What the law says of the steps so far, and of one more. -/
theorem OneIdentity.snoc {dart : DartLibraries} {tr : List IdentityEntry} {x : IdentityEntry}
    (h : OneIdentity dart tr x.pre) (hkept : Kept x.pre.storage x.post.storage)
    (hout : OutputOk dart x.post.service x.post.storage x.out) :
    OneIdentity dart (tr ++ [x]) x.post := by
  refine ⟨?_, ?_, ?_, ?_⟩
  · intro y hy
    obtain hy | hy := List.mem_append.mp hy
    · exact h.initialized y hy
    · obtain rfl := List.mem_singleton.mp hy
      exact hout.initialized
  · intro y hy a key hanswer
    obtain hy | hy := List.mem_append.mp hy
    · obtain ⟨pair, hstored, hkey⟩ := h.publicKeys y hy a key hanswer
      exact ⟨pair, hkept a pair hstored, hkey⟩
    · obtain rfl := List.mem_singleton.mp hy
      exact hout.publicKey a key hanswer
  · intro y hy payload signature hanswer
    obtain hy | hy := List.mem_append.mp hy
    · obtain ⟨pair, hstored, hsig⟩ := h.signatures y hy payload signature hanswer
      exact ⟨pair, hkept _ pair hstored, hsig⟩
    · obtain rfl := List.mem_singleton.mp hy
      exact hout.signature payload signature hanswer
  · intro y hy
    obtain hy | hy := List.mem_append.mp hy
    · exact h.present y hy
    · obtain rfl := List.mem_singleton.mp hy
      exact hout.present

/-- **One identity**: in a run of orderly steps, `initialize` returns with the two key pairs
of the storage set, and every key and signature is theirs. -/
theorem one_identity {dart : DartLibraries} {storage : Algorithm → Option DString}
    {tr : List IdentityEntry} {s : Identity}
    (hrun : Run (identityMachine dart) (.started storage) tr s) (horderly : ∀ x ∈ tr, Orderly x) :
    OneIdentity dart tr s := by
  have hinv : Consistent ∅ s ∧ OneIdentity dart tr s := by
    refine hrun.induction (P := fun tr s => Consistent ∅ s ∧ OneIdentity dart tr s)
      (Along.of_forall_mem horderly) ⟨consistent_started storage, by simp, by simp, by simp, by simp⟩ ?_
    rintro tr x - - hx hdoes ⟨hconsistent, hlaw⟩
    obtain ⟨hpost, hkept, hout⟩ := sound_step hdoes hx hconsistent
    exact ⟨hpost, hlaw.snoc hkept hout⟩
  exact hinv.2

/-! ## Two ways to another identity -/

/-- The phone of the samples, with its two seeds stored. -/
def sampleStorage : Algorithm → Option DString
  | .ed25519 => some (hex Interop.phoneSigningSeed.1)
  | .x25519 => some (hex Interop.phonePrivateKey.1)

def IdentityEvent.isCall : IdentityEvent → Bool
  | .call _ => true
  | _ => false

def identityTrace (storage : Algorithm → Option DString) (events : List (ℕ × IdentityEvent)) :
    List IdentityEntry :=
  (identityMachine (Interop.sampleDart Desktop.phoneRecording)).trace (.started storage) events

/-- Resume a task that generates nothing. -/
def goOn (id : ℕ) : ℕ × IdentityEvent := (id, .resume Interop.zeroKey)

/-- The second read fails.  The next call finds the first key pair set, and dereferences the
second. -/
theorem one_identity_fails :
    ¬ ∀ (dart : DartLibraries) (storage : Algorithm → Option DString) (tr : List IdentityEntry)
        (s : Identity),
      Run (identityMachine dart) (.started storage) tr s → OneIdentity dart tr s := by
  intro h
  let tr := identityTrace sampleStorage
    [(0, .call .exchangePublicKey), (0, .storage), goOn 0, goOn 0, (0, .storageFails),
      (1, .call .exchangePublicKey), goOn 1]
  have hlaw := h _ sampleStorage tr _ (Run.trace _ _ _)
  have hthrown : ∃ x ∈ tr, x.out.answer = some (.thrown .nullCheck) := by
    decide
  obtain ⟨x, hx, hanswer⟩ := hthrown
  exact hlaw.present x hx hanswer

/-- Nothing fails, but two calls find the first seed missing.  The one gives out its public
key, the other overwrites the seed. -/
theorem overlapping_calls_fail :
    ∃ s tr, Run (identityMachine (Interop.sampleDart Desktop.phoneRecording))
        (.started (Function.update sampleStorage .ed25519 none)) tr s ∧
      (∃ x ∈ tr, x.out.answer = some (.publicKey .ed25519 ⟨Desktop.phoneSigningKey,
        Codec.bigEndian_length 32 _⟩)) ∧
      storedPair s.storage .ed25519 = some Interop.desktopPrivateKey := by
  refine ⟨_, identityTrace (Function.update sampleStorage .ed25519 none)
    [(0, .call .publicKey), (1, .call .publicKey), (0, .storage), (1, .storage), goOn 0, goOn 1,
      (0, .resume Interop.phoneSigningSeed), (1, .resume Interop.desktopPrivateKey), goOn 0, goOn 1,
      (0, .storage), goOn 0, (0, .storage), goOn 0, goOn 0, goOn 0, goOn 0, (1, .storage)],
    Run.trace _ _ _, ?_, ?_⟩
  · decide
  · decide

/-- A step of a phone whose seeds are stored, and calls made before the first key pair is
set, are orderly. -/
theorem orderly_of_stored {x : IdentityEntry} (hstored : ∀ a, x.pre.storage a ≠ none)
    (hcalls : (x.act.2.isCall && x.pre.service.keyPair.isSome) = false) : Orderly x where
  calls method hact _ hset := by
    rw [hact] at hcalls
    obtain ⟨pair, hpair⟩ := Option.ne_none_iff_exists'.mp hset
    rw [hpair] at hcalls
    cases hcalls
  reads t a _ _ _ hnone := absurd hnone (hstored a)

/-- The storage fails once, then the phone gives out its public key. -/
theorem one_identity_sample :
    ∃ s tr, Run (identityMachine (Interop.sampleDart Desktop.phoneRecording))
        (.started sampleStorage) tr s ∧
      (∃ x ∈ tr, x.out.answer = some (.publicKey .ed25519 ⟨Desktop.phoneSigningKey,
        Codec.bigEndian_length 32 _⟩)) ∧
      OneIdentity (Interop.sampleDart Desktop.phoneRecording) tr s := by
  let tr := identityTrace sampleStorage
    [(0, .call .publicKey), (0, .storageFails), (1, .call .publicKey), (1, .storage), goOn 1,
      goOn 1, (1, .storage), goOn 1, goOn 1, goOn 1, goOn 1]
  refine ⟨_, tr, Run.trace _ _ _, by decide, one_identity (Run.trace _ _ _) ?_⟩
  have hsigning : ∀ x ∈ tr, (x.pre.storage .ed25519).isSome = true := by decide
  have hexchange : ∀ x ∈ tr, (x.pre.storage .x25519).isSome = true := by decide
  have hcalls : ∀ x ∈ tr, (x.act.2.isCall && x.pre.service.keyPair.isSome) = false := by
    decide
  intro x hx
  refine orderly_of_stored (fun a => ?_) (hcalls x hx)
  cases a with
  | ed25519 => exact Option.isSome_iff_ne_none.mp (hsigning x hx)
  | x25519 => exact Option.isSome_iff_ne_none.mp (hexchange x hx)

end OpenBioUnlock.Mobile

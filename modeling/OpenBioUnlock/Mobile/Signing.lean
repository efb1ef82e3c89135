import OpenBioUnlock.Mobile.Identity

/-!
# What the phone signs

`signChallenge` puts its message together in one step and signs it in the next, with
other calls between the two.  `phonePayload_signed` says that a signature is always
one of the nonce and timestamp of the call it answers.
-/

namespace OpenBioUnlock.Mobile

open Desktop (Bytes)
open Runs

/-- What `signChallenge` signs. -/
def phonePayload (nonce : Uint8List) (timestamp : Int64) : Uint8List :=
  nonce ++ u64be timestamp

/-- The message of a call of `signChallenge`. -/
def OfCall (method : Method) (payload : Uint8List) : Prop :=
  ∃ nonce timestamp, method = .signChallenge nonce timestamp ∧
    payload = phonePayload nonce timestamp

/-- Every task that is at `sign` signs what it was called with. -/
def AllSign (s : Identity) : Prop :=
  ∀ id t pair payload, s.tasks id = some t → t.phase = .signing pair payload →
    OfCall t.method payload

/-- The step keeps that, and a signature it answers is of an allowed message. -/
def SignedStep (allowed : Uint8List → Prop) (r : Option (Identity × IdentityOutput)) : Prop :=
  ∀ s' out, r = some (s', out) → AllSign s' ∧
    ∀ payload signature, out.answer = some (.signature payload signature) → allowed payload

section Signs

variable {dart : DartLibraries} {s : Identity} {id : ℕ} {method : Method} {phase : Phase}
variable {allowed : Uint8List → Prop}

theorem AllSign.goto (h : AllSign s)
    (hphase : ∀ pair payload, phase = .signing pair payload → OfCall method payload) :
    AllSign (s.goto id method phase) := by
  intro id' t pair payload ht hp
  simp only [Identity.goto, Function.update_apply] at ht
  split at ht
  · cases ht
    exact hphase pair payload hp
  · exact h id' t pair payload ht hp

theorem AllSign.finish (h : AllSign s) : AllSign (s.finish id) := by
  intro id' t pair payload ht hp
  simp only [Identity.finish, Function.update_apply] at ht
  split at ht
  · cases ht
  · exact h id' t pair payload ht hp

theorem signed_none : SignedStep allowed none := by
  intro s' out h
  cases h

/-- A task that goes on to anything but `sign`. -/
theorem signed_awaits (h : AllSign s) (hphase : ∀ pair payload, phase ≠ .signing pair payload) :
    SignedStep allowed (s.awaits id method phase) := by
  intro s' out heq
  cases heq
  exact ⟨h.goto fun pair payload hp => absurd hp (hphase pair payload), by simp⟩

theorem signed_returns (h : AllSign s) : SignedStep allowed (s.returns id method) := by
  intro s' out heq
  cases heq
  exact ⟨h.goto fun pair payload hp => by simp at hp, by simp⟩

theorem signed_answers (h : AllSign s) {answer : Answer}
    (hanswer : ∀ payload signature, answer ≠ .signature payload signature) :
    SignedStep allowed (s.answers id answer) := by
  intro s' out heq
  cases heq
  refine ⟨h.finish, fun payload signature hp => ?_⟩
  exact absurd (Option.some.inj hp) (hanswer payload signature)

theorem signed_throws (h : AllSign s) {e : DartError} : SignedStep allowed (s.throws id e) :=
  signed_answers h (by simp)

theorem signed_next (h : AllSign s) {a : Algorithm} : SignedStep allowed (s.next id method a) := by
  cases a with
  | ed25519 => exact signed_awaits h (by simp)
  | x25519 => exact signed_returns h

theorem signed_proceed (h : AllSign s) : SignedStep allowed (s.proceed id method) := by
  cases method with
  | publicKey =>
      simp only [Identity.proceed]
      split
      · exact signed_throws h
      · exact signed_awaits h (by simp)
  | exchangePublicKey =>
      simp only [Identity.proceed]
      split
      · exact signed_throws h
      · exact signed_awaits h (by simp)
  | signChallenge nonce timestamp => exact signed_awaits h (by simp)
  | establishSession workstationKey =>
      simp only [Identity.proceed]
      split
      · exact signed_throws h
      · split
        · exact signed_throws h
        · exact signed_awaits h (by simp)

theorem signed_call (h : AllSign s) : SignedStep allowed (s.call id method) := by
  have hinit : SignedStep allowed (s.initializePairs id method) := by
    unfold Identity.initializePairs
    split
    · exact signed_returns h
    · exact signed_awaits h (by simp)
  unfold Identity.call
  split
  · split
    · exact hinit
    · intro s' out heq
      cases heq
      exact ⟨h, by simp⟩
  · exact hinit

theorem signed_resume (h : AllSign s) (ht : s.tasks id = some ⟨method, phase⟩) (fresh : Bytes 32) :
    SignedStep (OfCall method) (s.resume id dart fresh method phase) := by
  cases phase with
  | reading | writing | authenticating => exact signed_none
  | read a encodedSeed =>
      cases encodedSeed with
      | none => exact signed_awaits h (by simp)
      | some encodedSeed =>
          simp only [Identity.resume]
          split
          · exact signed_throws h
          · exact signed_awaits h (by simp)
  | generating a =>
      cases a with
      | ed25519 => exact signed_awaits h (by simp)
      | x25519 => exact signed_awaits (s := s.withPair .x25519 fresh) h (by simp)
  | extracting a pair => exact signed_awaits h (by simp)
  | written a pair =>
      cases a with
      | ed25519 => exact signed_next (s := s.withPair .ed25519 pair) (a := .ed25519) h
      | x25519 => exact signed_next (a := .x25519) h
  | rebuilding a pair => exact signed_next (s := s.withPair a pair) h
  | initialized => exact signed_proceed h
  | extractingKey a pair => exact signed_answers h (by simp)
  | agreeing pair remote =>
      have hsession : AllSign { s with service := { s.service with
          sessionKey := some (dart.sharedSecretKey pair remote) } } := h
      exact signed_answers hsession (by simp)
  | signing pair payload =>
      intro s' out heq
      cases heq
      refine ⟨h.finish, ?_⟩
      rintro payload' signature heq
      simp only [Option.some.injEq, Answer.signature.injEq] at heq
      obtain ⟨rfl, -⟩ := heq
      exact h id _ pair payload ht rfl

theorem signed_performStorage (h : AllSign s) :
    SignedStep allowed (s.performStorage id method phase) := by
  unfold Identity.performStorage
  split
  · exact signed_awaits h (by simp)
  · exact signed_awaits h (by simp)
  · exact signed_none

theorem signed_authenticated (h : AllSign s) {approved : Option Bool} :
    SignedStep allowed (s.authenticated id approved method) := by
  unfold Identity.authenticated
  split
  · split
    · exact signed_throws h
    · exact signed_throws h
    · split
      · exact signed_throws h
      · rename_i nonce timestamp _ _ pair _
        intro s' out heq
        cases heq
        refine ⟨h.goto fun pair' payload hp => ?_, by simp⟩
        obtain ⟨-, rfl⟩ := Phase.signing.inj hp
        exact ⟨nonce, timestamp, rfl, rfl⟩
  · exact signed_none

/-- The messages of the call a task runs. -/
def OfTask (s : Identity) (id : ℕ) (payload : Uint8List) : Prop :=
  ∃ t, s.tasks id = some t ∧ OfCall t.method payload

/-- Any step of a task. -/
theorem signed_task {next : Task → Option (Identity × IdentityOutput)}
    (hnext : ∀ t, s.tasks id = some t → SignedStep (OfCall t.method) (next t)) :
    SignedStep (OfTask s id) ((s.tasks id).bind next) := by
  intro s' out heq
  obtain ⟨t, ht, heq⟩ := Option.bind_eq_some_iff.mp heq
  obtain ⟨hall, hsigned⟩ := hnext t ht s' out heq
  exact ⟨hall, fun payload signature hp => ⟨t, ht, hsigned payload signature hp⟩⟩

theorem signed_step (h : AllSign s) (act : ℕ × IdentityEvent) :
    SignedStep (OfTask s act.1) ((identityMachine dart).step s act) := by
  obtain ⟨id, event⟩ := act
  cases event with
  | call method =>
      simp only [identityMachine]
      split
      · exact signed_call h
      · exact signed_none
  | storage => exact signed_task fun t ht => signed_performStorage h
  | storageFails =>
      refine signed_task fun t ht => ?_
      unfold Identity.failStorage
      split
      · exact signed_throws h
      · exact signed_throws h
      · exact signed_none
  | resume fresh => exact signed_task fun t ht => signed_resume h ht fresh
  | authenticate approved =>
      refine signed_task fun t ht => ?_
      split
      · exact signed_authenticated h
      · exact signed_none

/-- **A signature is one of the call it answers**, in every run of the calls. -/
theorem phonePayload_signed {storage : Algorithm → Option DString} {tr : List IdentityEntry}
    (hrun : Run (identityMachine dart) (Identity.started storage) tr s) {x : IdentityEntry}
    (hx : x ∈ tr) {payload signature : Uint8List}
    (hanswer : x.out.answer = some (.signature payload signature)) :
    OfTask x.pre x.act.1 payload := by
  obtain ⟨pre, post, rfl⟩ := List.append_of_mem hx
  obtain ⟨hpre, hdoes⟩ := hrun.split
  have hall : AllSign x.pre := by
    apply hpre.invariant (fun id t pair payload ht => by cases ht)
    exact fun y hy h => (signed_step h y.act _ _ hy).1
  exact (signed_step hall x.act _ _ hdoes).2 payload signature hanswer

end Signs

end OpenBioUnlock.Mobile

import OpenBioUnlock.Mobile.OneIdentity
import OpenBioUnlock.Mobile.Signing

/-!
# The approval of the user

The phone signs nothing that its user has not approved.  Any number of calls are under way
on the one service, and their steps come in any order: `signature_approved` says that a
signature comes after an approval of the very call it answers, with nothing of that call in
between, and that it is made with the key pair the service had at the approval.

`TaskStep` lists what a step does to the tasks; all that matters of most steps is that they
neither approve nor sign.
-/

namespace OpenBioUnlock.Mobile

open Desktop (Bytes)
open Runs

/-! ## What a step does to the tasks -/

/-- The steps of the task `id`. -/
inductive TaskStep (dart : DartLibraries) (s : Identity) (id : ℕ) :
    IdentityEvent → Identity → IdentityOutput → Prop
  /-- the task goes on to another await -/
  | moves {event : IdentityEvent} {s' : Identity} {method : Method} {phase : Phase}
      {initialized : Bool} (htasks : s'.tasks = s.tasks)
      (hphase : ∀ pair payload, phase ≠ .signing pair payload) :
      TaskStep dart s id event (s'.goto id method phase) ⟨initialized, none⟩
  | ends {event : IdentityEvent} {s' : Identity} {answer : Answer} (htasks : s'.tasks = s.tasks)
      (hanswer : ∀ payload signature, answer ≠ .signature payload signature) :
      TaskStep dart s id event (s'.finish id) ⟨false, some answer⟩
  /-- `signChallenge` refuses its nonce -/
  | refuses {event : IdentityEvent} {e : DartError} (htask : s.tasks id = none) :
      TaskStep dart s id event s ⟨false, some (.thrown e)⟩
  | approves {nonce : Uint8List} {timestamp : Int64} {pair : Bytes 32}
      (htask : s.tasks id = some ⟨.signChallenge nonce timestamp, .authenticating⟩)
      (hpair : s.service.keyPair = some pair) :
      TaskStep dart s id (.authenticate (some true))
        (s.goto id (.signChallenge nonce timestamp) (.signing pair (phonePayload nonce timestamp)))
        ⟨false, none⟩
  | signs {fresh : Bytes 32} {method : Method} {pair : Bytes 32} {payload : Uint8List}
      (htask : s.tasks id = some ⟨method, .signing pair payload⟩) :
      TaskStep dart s id (.resume fresh) (s.finish id)
        ⟨false, some (.signature payload (dart.sign pair payload))⟩

/-- A result, if there is one, is a step of the task. -/
def Steps (dart : DartLibraries) (s : Identity) (id : ℕ) (event : IdentityEvent)
    (r : Option (Identity × IdentityOutput)) : Prop :=
  ∀ s' out, r = some (s', out) → TaskStep dart s id event s' out

section Steps

variable {dart : DartLibraries} {s t : Identity} {id : ℕ} {event : IdentityEvent}
variable {method : Method} {phase : Phase}

theorem steps_none : Steps dart s id event none := by
  intro s' out h
  cases h

theorem steps_awaits (htasks : t.tasks = s.tasks)
    (hphase : ∀ pair payload, phase ≠ .signing pair payload) :
    Steps dart s id event (t.awaits id method phase) := by
  intro s' out h
  cases h
  exact .moves htasks hphase

theorem steps_returns (htasks : t.tasks = s.tasks) :
    Steps dart s id event (t.returns id method) := by
  intro s' out h
  cases h
  exact .moves htasks (by simp)

theorem steps_answers (htasks : t.tasks = s.tasks) {answer : Answer}
    (hanswer : ∀ payload signature, answer ≠ .signature payload signature) :
    Steps dart s id event (t.answers id answer) := by
  intro s' out h
  cases h
  exact .ends htasks hanswer

theorem steps_throws (htasks : t.tasks = s.tasks) {e : DartError} :
    Steps dart s id event (t.throws id e) :=
  steps_answers htasks (by simp)

theorem steps_next (htasks : t.tasks = s.tasks) {a : Algorithm} :
    Steps dart s id event (t.next id method a) := by
  cases a with
  | ed25519 => exact steps_awaits htasks (by simp)
  | x25519 => exact steps_returns htasks

theorem steps_proceed : Steps dart s id event (s.proceed id method) := by
  unfold Identity.proceed
  split
  · split
    · exact steps_throws rfl
    · exact steps_awaits rfl (by simp)
  · split
    · exact steps_throws rfl
    · exact steps_awaits rfl (by simp)
  · exact steps_awaits rfl (by simp)
  · split
    · exact steps_throws rfl
    · split
      · exact steps_throws rfl
      · exact steps_awaits rfl (by simp)

theorem steps_call (htask : s.tasks id = none) : Steps dart s id event (s.call id method) := by
  have hinit : Steps dart s id event (s.initializePairs id method) := by
    unfold Identity.initializePairs
    split
    · exact steps_returns rfl
    · exact steps_awaits rfl (by simp)
  unfold Identity.call
  split
  · split
    · exact hinit
    · intro s' out h
      cases h
      exact .refuses htask
  · exact hinit

theorem steps_resume (htask : s.tasks id = some ⟨method, phase⟩) (fresh : Bytes 32) :
    Steps dart s id (.resume fresh) (s.resume id dart fresh method phase) := by
  unfold Identity.resume
  split
  · exact steps_awaits rfl (by simp)
  · split
    · exact steps_throws rfl
    · exact steps_awaits rfl (by simp)
  · exact steps_awaits rfl (by simp)
  · exact steps_awaits rfl (by simp)
  · exact steps_awaits rfl (by simp)
  · apply steps_next
    rfl
  · exact steps_next rfl
  · apply steps_next
    rfl
  · exact steps_proceed
  · exact steps_answers rfl (by simp)
  · intro s' out h
    cases h
    exact .signs htask
  · apply steps_answers
    · rfl
    · simp
  · exact steps_none
  · exact steps_none
  · exact steps_none

theorem steps_performStorage : Steps dart s id event (s.performStorage id method phase) := by
  unfold Identity.performStorage
  split
  · exact steps_awaits rfl (by simp)
  · exact steps_awaits rfl (by simp)
  · exact steps_none

theorem steps_failStorage : Steps dart s id event (s.failStorage id phase) := by
  unfold Identity.failStorage
  split
  · exact steps_throws rfl
  · exact steps_throws rfl
  · exact steps_none

/-- Only an approval leads to a signature. -/
theorem steps_authenticated (htask : s.tasks id = some ⟨method, .authenticating⟩)
    (approved : Option Bool) :
    Steps dart s id (.authenticate approved) (s.authenticated id approved method) := by
  unfold Identity.authenticated
  split
  · split
    · exact steps_throws rfl
    · exact steps_throws rfl
    · split
      · exact steps_throws rfl
      · rename_i hpair
        intro s' out h
        cases h
        exact .approves htask hpair
  · exact steps_none

/-- **Every step is one of these.** -/
theorem task_step {x : IdentityEntry} (hdoes : (identityMachine dart).Does x) :
    TaskStep dart x.pre x.act.1 x.act.2 x.post x.out := by
  obtain ⟨s, ⟨id, event⟩, out, s'⟩ := x
  cases event with
  | call method =>
      simp only [Machine.Does, identityMachine] at hdoes
      split at hdoes
      · rename_i htask
        exact steps_call htask _ _ hdoes
      · cases hdoes
  | storage =>
      obtain ⟨task, -, h⟩ := Option.bind_eq_some_iff.mp hdoes
      exact steps_performStorage _ _ h
  | storageFails =>
      obtain ⟨task, -, h⟩ := Option.bind_eq_some_iff.mp hdoes
      exact steps_failStorage _ _ h
  | resume fresh =>
      obtain ⟨task, htask, h⟩ := Option.bind_eq_some_iff.mp hdoes
      exact steps_resume htask fresh _ _ h
  | authenticate approved =>
      obtain ⟨⟨method, phase⟩, htask, h⟩ := Option.bind_eq_some_iff.mp hdoes
      cases phase with
      | authenticating => exact steps_authenticated htask approved _ _ h
      | _ => cases h

end Steps

/-! ## The approval of a task that signs -/

variable {dart : DartLibraries} {storage : Algorithm → Option DString} {tr : List IdentityEntry}
variable {s : Identity} {x : IdentityEntry} {id : ℕ}

/-- The user approves the call of the task `id`, which signs the payload with the pair. -/
structure Approves (y : IdentityEntry) (id : ℕ) (pair : Bytes 32) (payload : Uint8List) :
    Prop where
  act : y.act = (id, .authenticate (some true))
  task : ∃ nonce timestamp, y.pre.tasks id =
    some ⟨.signChallenge nonce timestamp, .authenticating⟩ ∧ payload = phonePayload nonce timestamp
  keyPair : y.pre.service.keyPair = some pair

/-- The last step of the task was its approval. -/
def ApprovedLast (tr : List IdentityEntry) (id : ℕ) (pair : Bytes 32) (payload : Uint8List) :
    Prop :=
  ∃ front y mid, tr = front ++ y :: mid ∧ Approves y id pair payload ∧ ∀ z ∈ mid, z.act.1 ≠ id

theorem ApprovedLast.snoc {pair : Bytes 32} {payload : Uint8List}
    (h : ApprovedLast tr id pair payload) (hother : x.act.1 ≠ id) :
    ApprovedLast (tr ++ [x]) id pair payload := by
  obtain ⟨front, y, mid, rfl, happroves, hmid⟩ := h
  refine ⟨front, y, mid ++ [x], by simp, happroves, fun z hz => ?_⟩
  rcases List.mem_append.mp hz with hz | hz
  · exact hmid z hz
  · obtain rfl := List.mem_singleton.mp hz
    exact hother

/-- A step leaves the tasks of the others alone. -/
theorem tasks_frame (hdoes : (identityMachine dart).Does x) (hother : id ≠ x.act.1) :
    x.post.tasks id = x.pre.tasks id := by
  have hcase := task_step hdoes
  generalize x.act.2 = event at hcase
  generalize x.out = out at hcase
  generalize x.post = s' at hcase
  cases hcase with
  | moves htasks | ends htasks =>
      rw [← htasks]
      exact Function.update_of_ne hother _ _
  | refuses => rfl
  | approves | signs => exact Function.update_of_ne hother _ _

/-- A task that is about to sign has just been approved. -/
theorem signing_step (hdoes : (identityMachine dart).Does x) {method : Method} {pair : Bytes 32}
    {payload : Uint8List}
    (htask : x.post.tasks x.act.1 = some ⟨method, .signing pair payload⟩) :
    Approves x x.act.1 pair payload := by
  have hcase := task_step hdoes
  obtain ⟨pre, ⟨id, event⟩, out, post⟩ := x
  simp only at hcase htask
  cases hcase with
  | moves htasks hphase =>
      simp only [Identity.goto, Function.update_self, Option.some.injEq, Task.mk.injEq] at htask
      exact absurd htask.2 (hphase pair payload)
  | ends | signs =>
      simp only [Identity.finish, Function.update_self] at htask
      cases htask
  | refuses hfree =>
      rw [hfree] at htask
      cases htask
  | approves hauth hpair =>
      simp only [Identity.goto, Function.update_self, Option.some.injEq, Task.mk.injEq,
        Phase.signing.injEq] at htask
      obtain ⟨-, rfl, rfl⟩ := htask
      exact ⟨rfl, ⟨_, _, hauth, rfl⟩, hpair⟩

/-- **Whoever is about to sign has been approved**, in every run. -/
theorem approvedLast_run (hrun : Run (identityMachine dart) (Identity.started storage) tr s) :
    ∀ id method pair payload, s.tasks id = some ⟨method, .signing pair payload⟩ →
      ApprovedLast tr id pair payload := by
  refine hrun.history (P := fun tr s => ∀ id method pair payload,
    s.tasks id = some ⟨method, .signing pair payload⟩ → ApprovedLast tr id pair payload) ?_ ?_
  · intro id method pair payload htask
    cases htask
  · rintro tr x - hdoes ih id method pair payload htask
    by_cases hid : id = x.act.1
    · subst hid
      exact ⟨tr, x, [], rfl, signing_step hdoes htask, by simp⟩
    · rw [tasks_frame hdoes hid] at htask
      exact (ih id method pair payload htask).snoc (Ne.symm hid)

/-- What answers with a signature was about to sign. -/
theorem signature_step (hdoes : (identityMachine dart).Does x) {payload signature : Uint8List}
    (hanswer : x.out.answer = some (.signature payload signature)) :
    ∃ method pair, x.pre.tasks x.act.1 = some ⟨method, .signing pair payload⟩ ∧
      signature = dart.sign pair payload := by
  have hcase := task_step hdoes
  obtain ⟨pre, ⟨id, event⟩, out, post⟩ := x
  simp only at hcase hanswer
  cases hcase with
  | moves | approves => cases hanswer
  | refuses => simp at hanswer
  | ends htasks hother => exact absurd (Option.some.inj hanswer) (hother payload signature)
  | signs htask =>
      obtain ⟨rfl, rfl⟩ := Answer.signature.inj (Option.some.inj hanswer)
      exact ⟨_, _, htask, rfl⟩

/-! ## The law -/

/-- The step approves the call of the task. -/
def approvalOf (id : ℕ) (x : IdentityEntry) : Bool :=
  match x.act with
  | (k, .authenticate (some true)) => k = id
  | _ => false

/-- The step answers the call of the task with a signature. -/
def signatureOf (id : ℕ) (x : IdentityEntry) : Bool :=
  match x.out.answer with
  | some (.signature _ _) => x.act.1 = id
  | _ => false

/-- **The law of the approvals.** -/
structure ApprovalLaw (dart : DartLibraries) (tr : List IdentityEntry) : Prop where
  /-- a signature comes next after an approval of its call, and is of what was approved -/
  approved : ∀ pre x post payload signature, tr = pre ++ x :: post →
    x.out.answer = some (.signature payload signature) →
      ∃ pair, ApprovedLast pre x.act.1 pair payload ∧ signature = dart.sign pair payload
  /-- no approval is good for two signatures -/
  once : ∀ id, tr.countP (signatureOf id) ≤ tr.countP (approvalOf id)

def Phase.signs : Phase → Bool
  | .signing _ _ => true
  | _ => false

/-- The task is about to sign. -/
def Identity.signsNext (s : Identity) (id : ℕ) : Bool :=
  (s.tasks id).any fun t => t.phase.signs

theorem Phase.signs_eq_false {phase : Phase}
    (h : ∀ pair payload, phase ≠ .signing pair payload) : phase.signs = false := by
  cases phase with
  | signing pair payload => exact absurd rfl (h pair payload)
  | _ => rfl

@[simp] theorem signsNext_goto (s : Identity) (id : ℕ) (method : Method) (phase : Phase) :
    (s.goto id method phase).signsNext id = phase.signs := by
  simp [Identity.signsNext, Identity.goto]

@[simp] theorem signsNext_finish (s : Identity) (id : ℕ) : (s.finish id).signsNext id = false := by
  simp [Identity.signsNext, Identity.finish]

/-- **Every signature uses up an approval**: what a step adds to the two. -/
theorem counts_step (hdoes : (identityMachine dart).Does x) (id : ℕ) :
    (signatureOf id x).toNat + (x.post.signsNext id).toNat ≤
      (approvalOf id x).toNat + (x.pre.signsNext id).toNat := by
  by_cases hid : id = x.act.1
  · subst hid
    have hcase := task_step hdoes
    obtain ⟨pre, ⟨id, event⟩, out, post⟩ := x
    simp only at hcase
    cases hcase with
    | moves htasks hphase => simp [signatureOf, Phase.signs_eq_false hphase]
    | @ends _ _ answer htasks hanswer =>
        cases answer with
        | signature payload signature => exact absurd rfl (hanswer payload signature)
        | _ => simp [signatureOf]
    | refuses => simp [signatureOf]
    | approves => simp [signatureOf, approvalOf, Phase.signs]
    | signs htask => simp [signatureOf, Identity.signsNext, htask, Phase.signs, Identity.finish]
  · have hsignature : signatureOf id x = false := by
      unfold signatureOf
      split
      · exact decide_eq_false (Ne.symm hid)
      · rfl
    rw [hsignature, Identity.signsNext, Identity.signsNext, tasks_frame hdoes hid]
    exact Nat.add_le_add_right (Nat.zero_le _) _

theorem counts_run (hrun : Run (identityMachine dart) (Identity.started storage) tr s) (id : ℕ) :
    tr.countP (signatureOf id) + (s.signsNext id).toNat ≤ tr.countP (approvalOf id) := by
  refine hrun.history (P := fun tr s =>
    tr.countP (signatureOf id) + (s.signsNext id).toNat ≤ tr.countP (approvalOf id)) ?_ ?_
  · exact Nat.le_refl 0
  · rintro tr x - hdoes ih
    have hcounts := counts_step hdoes id
    have hone : ∀ p : IdentityEntry → Bool, [x].countP p = (p x).toNat := by
      intro p
      cases h : p x <;> simp [h]
    rw [List.countP_append, List.countP_append, hone, hone]
    omega

/-- **A signature is approved**, in every run of the calls. -/
theorem signature_approved (hrun : Run (identityMachine dart) (Identity.started storage) tr s) :
    ApprovalLaw dart tr where
  approved := by
    rintro pre x post payload signature rfl hanswer
    obtain ⟨hpre, hdoes⟩ := hrun.split
    obtain ⟨method, pair, htask, hsignature⟩ := signature_step hdoes hanswer
    exact ⟨pair, approvedLast_run hpre _ _ _ _ htask, hsignature⟩
  once id := Nat.le_of_add_right_le (counts_run hrun id)

/-- Two challenges at once: the user approves the one, and denies the other. -/
def approvalTrace : List IdentityEntry :=
  identityTrace sampleStorage
    [(0, .call (.signChallenge (List.replicate 32 1) 1000)), (0, .storage), goOn 0, goOn 0,
      (0, .storage), goOn 0, goOn 0, goOn 0, (1, .call (.signChallenge (List.replicate 32 2) 1000)),
      goOn 1, (0, .authenticate (some true)), (1, .authenticate (some false)), goOn 0]

theorem signature_approved_sample :
    (approvalTrace.countP (signatureOf 0) = 1 ∧ approvalTrace.countP (signatureOf 1) = 0) ∧
      ApprovalLaw (Interop.sampleDart Desktop.phoneRecording) approvalTrace :=
  ⟨by decide +kernel, signature_approved (Run.trace _ _ _)⟩

end OpenBioUnlock.Mobile

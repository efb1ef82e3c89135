import OpenBioUnlock.Windows.Lifetime

/-!
# Reference counts

Two things are asked of the counts: no object is destroyed while the client holds a
reference to it, and none is left once the client holds no reference.

`ReferenceStep` lists what a call can do to the objects and the references.  The
invariant is `Accounted`: the count of an object is the number of references the
client holds, and one more for a credential, which its provider owns; the counts have
32 bits.

The provider never gives up the reference it owns.  So a credential outlives its
provider and everything the client releases, and `references_iff` says that this, and
a count that wraps around, is all that goes wrong.
-/

namespace OpenBioUnlock.Windows

open Runs

/-! ## The law -/

/-- The client has released all its references. -/
def ComState.Released (s : ComState) : Prop :=
  ∀ o, s.held o = 0

/-- What should hold in every state. -/
structure ComState.Conserves (s : ComState) : Prop where
  /-- nothing that is held has been destroyed -/
  held : ∀ o, 0 < s.held o → s.objects o ≠ none
  /-- nothing is left that nobody holds -/
  released : s.Released → ∀ o, s.objects o = none

/-! ## The condition -/

/-- The references to an object of the class that its owner has. -/
def Class.owners : Class → ℕ
  | .credential => 1
  | _ => 0

/-- The references to an object. -/
def ComState.references (s : ComState) (o : Pointer) : ℕ :=
  s.held o + ((s.objects o).map fun object => object.cls.owners).getD 0

/-- The call creates a provider, with its credential. -/
def Call.ConstructsProvider : Call → Prop
  | .createInstance _ outer _ place memory credentialMemory =>
      outer = false ∧ place = true ∧ memory = true ∧ credentialMemory = true
  | _ => False

/-- The step releases a reference and leaves a number of them that 32 bits take for
none. -/
def WrapsAround (x : ComEntry) : Prop :=
  ∃ o, x.act = .release o ∧ 0 < x.pre.references o - 1 ∧
    UInt32.size ∣ x.pre.references o - 1

/-- **The condition on a step**: no count wraps around, and the client holds something if
a provider has been created. -/
structure Counted (pre : List ComEntry) (x : ComEntry) : Prop where
  exact : ¬ WrapsAround x
  holds : x.post.Released → ∀ y ∈ pre ++ [x], ¬ y.act.ConstructsProvider

/-! ## What a call does to the references -/

/-- The call is no `Release` and creates no provider. -/
def Call.Plain (call : Call) : Prop :=
  (∀ o, call ≠ .release o) ∧ ¬ call.ConstructsProvider

/-- The objects, and the references of the client, after a call. -/
inductive ReferenceStep (s : ComState) : Call → ComState → Prop
  /-- nothing changes -/
  | same {call : Call} {s' : ComState} (hcall : call.Plain)
      (hobjects : s'.objects = s.objects) (hcreated : s'.created = s.created)
      (hheld : s'.held = s.held) : ReferenceStep s call s'
  /-- the client gains a reference to an object -/
  | gains {call : Call} {s' : ComState} {o : Pointer} {object : Object} (hcall : call.Plain)
      (hobject : s.objects o = some object)
      (hobjects : s'.objects = Function.update s.objects o
        (some { object with references := object.references + 1 }))
      (hcreated : s'.created = s.created)
      (hheld : s'.held = Function.update s.held o (s.held o + 1)) : ReferenceStep s call s'
  /-- it gives one up -/
  | releases {s' : ComState} {o : Pointer} {object : Object} (hobject : s.objects o = some object)
      (hpositive : 0 < s.held o)
      (hobjects : s'.objects = Function.update s.objects o
        (if object.references - 1 = 0 then none
          else some { object with references := object.references - 1 }))
      (hcreated : s'.created = s.created)
      (hheld : s'.held = Function.update s.held o (s.held o - 1)) :
      ReferenceStep s (.release o) s'
  /-- a class factory is created, and handed out or deleted again -/
  | factory {call : Call} {s' : ComState} (hcall : call.Plain) (given : Bool)
      (hobjects : s'.objects = Function.update s.objects s.created
        (if given then some ⟨.factory, 1⟩ else none))
      (hcreated : s'.created = s.created + 1)
      (hheld : s'.held = if given then Function.update s.held s.created (s.held s.created + 1)
        else s.held) : ReferenceStep s call s'
  /-- a credential is created, and a provider that is handed out or deleted again -/
  | provider {call : Call} {s' : ComState} (hcall : call.ConstructsProvider) (given : Bool)
      (hobjects : s'.objects = Function.update
        (Function.update s.objects s.created (some ⟨.credential, 1⟩)) (s.created + 1)
        (if given then some ⟨.provider s.created, 1⟩ else none))
      (hcreated : s'.created = s.created + 2)
      (hheld : s'.held = if given then
        Function.update s.held (s.created + 1) (s.held (s.created + 1) + 1) else s.held) :
      ReferenceStep s call s'

variable {d : Dll} {s s' : ComState} {call : Call} {answer : Answer} {o : Pointer}
variable {x : ComEntry} {tr : List ComEntry}

/-- `QueryInterface` adds a reference if it succeeds. -/
theorem queryInterface_cases {object : Object} {riid : Iid} {place : Bool} {p : Dll × Answer}
    (hobject : d.objects o = some object) (hp : d.queryInterface o riid place = some p) :
    (p.1 = d ∧ p.2.object = none) ∨
      (p.1 = d.put o (some { object with references := object.references + 1 }) ∧
        p.2.object = some o) := by
  simp only [Dll.queryInterface, hobject, Option.bind_some, Dll.addRef, Option.map_some] at hp
  split_ifs at hp
  · cases hp
    exact Or.inl ⟨rfl, rfl⟩
  · cases hp
    exact Or.inr ⟨rfl, rfl⟩
  · cases hp
    exact Or.inl ⟨rfl, rfl⟩

/-- What `after` keeps of a call. -/
theorem after_fields {r : Option (Dll × Answer)} (h : r.map s.after = some (s', answer)) :
    ∃ p, r = some p ∧ s'.objects = p.1.objects ∧ s'.created = p.1.created ∧
      s'.held = match p.2.object with
        | some o => Function.update s.held o (s.held o + 1)
        | none => s.held := by
  obtain ⟨p, hp, hs'⟩ := Option.map_eq_some_iff.mp h
  cases hs'
  exact ⟨p, hp, rfl, rfl, rfl⟩

/-- A new object is handed out or deleted again. -/
theorem after_handOut {cls : Class} {riid : Iid} {place : Bool}
    (hnew : d.objects o = some ⟨cls, 1⟩)
    (h : (d.handOut o riid place).map s.after = some (s', answer)) :
    s'.created = d.created ∧ ∃ given : Bool,
      s'.objects = Function.update d.objects o (if given then some ⟨cls, 1⟩ else none) ∧
        s'.held = if given then Function.update s.held o (s.held o + 1) else s.held := by
  obtain ⟨p, hp, hobjects, hcreated, hheld⟩ := after_fields h
  rw [Dll.handOut_eq hnew] at hp
  by_cases hsupported : (riid = .unknown ∨ riid = cls.interface) ∧ place = true
  · rw [if_pos hsupported] at hp
    cases hp
    refine ⟨hcreated, true, ?_, hheld⟩
    rw [hobjects, if_pos rfl, ← hnew, Function.update_eq_self]
  · rw [if_neg hsupported] at hp
    cases hp
    exact ⟨hcreated, false, hobjects, hheld⟩

/-- A call that is refused changes nothing. -/
theorem ReferenceStep.refused {refusal : Answer} (hcall : call.Plain)
    (h : (some (s.toDll, refusal)).map s.after = some (s', answer))
    (hnone : refusal.object = none) : ReferenceStep s call s' := by
  obtain ⟨p, hp, hobjects, hcreated, hheld⟩ := after_fields h
  cases hp
  rw [hnone] at hheld
  exact .same hcall hobjects hcreated hheld

/-- A call of an object that the client holds. -/
theorem object_of_classOf {cls : Class} (h : s.classOf o = some cls) :
    0 < s.held o ∧ ∃ object, s.objects o = some object ∧ object.cls = cls := by
  unfold ComState.classOf at h
  split_ifs at h with hheld
  obtain ⟨object, hobject, hcls⟩ := Option.map_eq_some_iff.mp h
  exact ⟨hheld, object, hobject, hcls⟩

theorem referenceStep_getClassObject {clsid : Guid} {riid : Iid} {place memory : Bool}
    (h : s.step (.dllGetClassObject clsid riid place memory) = some (s', answer)) :
    ReferenceStep s (.dllGetClassObject clsid riid place memory) s' := by
  have hplain : (Call.dllGetClassObject clsid riid place memory).Plain :=
    ⟨by simp, fun hconstructs => hconstructs⟩
  simp only [ComState.step, Dll.dllGetClassObject] at h
  split_ifs at h
  · exact .refused hplain h rfl
  · exact .refused hplain h rfl
  · have hnew : (s.toDll.new .factory).1.objects s.created = some ⟨.factory, 1⟩ := by
      simp [Dll.new, Dll.put]
    obtain ⟨hcreated, given, hobjects, hheld⟩ := after_handOut hnew h
    refine .factory hplain given ?_ hcreated hheld
    rw [hobjects]
    simp [Dll.new, Dll.put]

theorem referenceStep_createInstance {factory : Pointer} {outer : Bool} {riid : Iid}
    {place memory credentialMemory : Bool}
    (h : s.step (.createInstance factory outer riid place memory credentialMemory) =
      some (s', answer)) :
    ReferenceStep s (.createInstance factory outer riid place memory credentialMemory) s' := by
  have hplain (hrefused : ¬ (outer = false ∧ place = true ∧ memory = true ∧
      credentialMemory = true)) : (Call.createInstance factory outer riid place memory
        credentialMemory).Plain := ⟨by simp, hrefused⟩
  simp only [ComState.step, Dll.createInstance] at h
  split at h
  · split_ifs at h with houter hmemory hcredential
    · exact .refused (hplain (by rintro ⟨rfl, rfl, -⟩; simp at houter)) h rfl
    · exact .refused (hplain (by rintro ⟨-, -, rfl, -⟩; simp at hmemory)) h rfl
    · exact .refused (hplain (by rintro ⟨-, -, -, rfl⟩; simp at hcredential)) h rfl
    · have hconstructs : (Call.createInstance factory outer riid place memory
          credentialMemory).ConstructsProvider := by
        simp only [Call.ConstructsProvider]
        revert houter hmemory hcredential
        cases outer <;> cases place <;> cases memory <;> cases credentialMemory <;> simp
      have hnew : ((s.toDll.new .credential).1.new (.provider s.created)).1.objects
          (s.created + 1) = some ⟨.provider s.created, 1⟩ := by
        simp [Dll.new, Dll.put]
      obtain ⟨hcreated, given, hobjects, hheld⟩ := after_handOut hnew h
      refine .provider hconstructs given ?_ hcreated hheld
      rw [hobjects]
      simp [Dll.new, Dll.put]
  · cases h

/-- **Every call is one of these.** -/
theorem reference_step (hdoes : comMachine.Does x) : ReferenceStep x.pre x.act x.post := by
  obtain ⟨s, call, answer, s'⟩ := x
  have h : s.step call = some (s', answer) := hdoes
  cases call with
  | dllGetClassObject clsid riid place memory => exact referenceStep_getClassObject h
  | createInstance factory outer riid place memory credentialMemory =>
      exact referenceStep_createInstance h
  | getCredentialAt provider index place =>
      have hplain : (Call.getCredentialAt provider index place).Plain := ⟨by simp, fun h => h⟩
      simp only [ComState.step, Dll.getCredentialAt] at h
      split at h
      · split_ifs at h
        · exact .refused hplain h rfl
        · obtain ⟨p, hp, hobjects, hcreated, hheld⟩ := after_fields h
          obtain ⟨q, hq, rfl⟩ := Option.map_eq_some_iff.mp hp
          obtain ⟨object, hobject, rfl⟩ := Option.map_eq_some_iff.mp hq
          exact .gains hplain hobject hobjects hcreated hheld
      · cases h
  | queryInterface o riid place =>
      have hplain : (Call.queryInterface o riid place).Plain := ⟨by simp, fun h => h⟩
      simp only [ComState.step] at h
      split at h
      · rename_i cls hcls
        obtain ⟨-, object, hobject, -⟩ := object_of_classOf hcls
        obtain ⟨p, hp, hobjects, hcreated, hheld⟩ := after_fields h
        rcases queryInterface_cases hobject hp with ⟨hdll, hanswer⟩ | ⟨hdll, hanswer⟩
        · rw [hdll] at hobjects hcreated
          rw [hanswer] at hheld
          exact .same hplain hobjects hcreated hheld
        · rw [hdll] at hobjects hcreated
          rw [hanswer] at hheld
          exact .gains hplain hobject hobjects hcreated hheld
      · cases h
  | addRef o =>
      simp only [ComState.step] at h
      split at h
      · obtain ⟨p, hp, hs'⟩ := Option.map_eq_some_iff.mp h
        obtain ⟨object, hobject, rfl⟩ := Option.map_eq_some_iff.mp hp
        cases hs'
        exact .gains ⟨by simp, fun h => h⟩ hobject rfl rfl rfl
      · cases h
  | release o =>
      simp only [ComState.step] at h
      split at h
      · rename_i cls hcls
        obtain ⟨hpositive, -⟩ := object_of_classOf hcls
        obtain ⟨p, hp, hs'⟩ := Option.map_eq_some_iff.mp h
        obtain ⟨object, hobject, rfl⟩ := Option.map_eq_some_iff.mp hp
        cases hs'
        exact .releases hobject hpositive rfl rfl rfl
      · cases h
  | lockServer factory lock =>
      have hplain : (Call.lockServer factory lock).Plain := ⟨by simp, fun h => h⟩
      simp only [ComState.step] at h
      split at h
      · split_ifs at h
        · cases h
          exact .same hplain rfl rfl rfl
        · cases h
          exact .same hplain rfl rfl rfl
      · cases h

/-! ## The invariant -/

/-- The object is there exactly if it is referenced, and has the right count. -/
def AccountedAt (object : Option Object) (held : ℕ) : Prop :=
  match object with
  | none => held = 0
  | some object => 0 < held + object.cls.owners ∧
      object.references = UInt32.ofNat (held + object.cls.owners)

/-- At the address is a credential. -/
def ComState.CredentialAt (s : ComState) (o : Pointer) : Prop :=
  (s.objects o).map Object.cls = some .credential

/-- A provider has been created. -/
def Constructed (tr : List ComEntry) : Prop :=
  ∃ x ∈ tr, x.act.ConstructsProvider

/-- The counts are right, and there is a credential if a provider was ever created. -/
structure Accounted (tr : List ComEntry) (s : ComState) : Prop where
  counts : ∀ o, AccountedAt (s.objects o) (s.held o)
  fresh : ∀ o : ℕ, s.created ≤ o → s.objects o = none
  credential : (∃ o, s.CredentialAt o) ↔ Constructed tr

theorem accounted_initial : Accounted [] ComState.initial :=
  ⟨fun _ => rfl, fun _ _ => rfl, by simp [ComState.initial, ComState.CredentialAt, Constructed]⟩

/-- One reference more. -/
theorem AccountedAt.gain {object : Object} {held : ℕ} (h : AccountedAt (some object) held) :
    AccountedAt (some { object with references := object.references + 1 }) (held + 1) := by
  obtain ⟨-, hcount⟩ := h
  have hsum : held + 1 + object.cls.owners = held + object.cls.owners + 1 := by omega
  refine ⟨by simp only; omega, ?_⟩
  simp only [hcount, hsum]
  rw [UInt32.ofNat_add (held + object.cls.owners)]
  rfl

/-- One reference less, in 32 bits. -/
theorem AccountedAt.less {object : Object} {held : ℕ} (h : AccountedAt (some object) held)
    (hheld : 0 < held) :
    object.references - 1 = UInt32.ofNat (held + object.cls.owners - 1) := by
  obtain ⟨-, hcount⟩ := h
  have hsum : held + object.cls.owners = held + object.cls.owners - 1 + 1 := by omega
  rw [hcount, hsum, UInt32.ofNat_add (held + object.cls.owners - 1)]
  exact add_sub_cancel_right _ _

/-- A count that does not wrap around is zero after a release only if no reference is
left. -/
theorem AccountedAt.left {object : Object} {held : ℕ} (h : AccountedAt (some object) held)
    (hheld : 0 < held) (hexact : ¬ (0 < held + object.cls.owners - 1 ∧
      UInt32.size ∣ held + object.cls.owners - 1)) :
    object.references - 1 = 0 ↔ held + object.cls.owners = 1 := by
  rw [h.less hheld, ofNat_eq_zero_iff]
  constructor
  · intro hdvd
    have hnone := Nat.eq_zero_of_not_pos fun hpos => hexact ⟨hpos, hdvd⟩
    omega
  · intro hone
    rw [hone]
    exact Nat.dvd_zero _

/-- One less, if the count does not wrap around. -/
theorem AccountedAt.release {object : Object} {held : ℕ} (h : AccountedAt (some object) held)
    (hheld : 0 < held) (hexact : ¬ (0 < held + object.cls.owners - 1 ∧
      UInt32.size ∣ held + object.cls.owners - 1)) :
    AccountedAt (if object.references - 1 = 0 then none
      else some { object with references := object.references - 1 }) (held - 1) := by
  have hzero := h.left hheld hexact
  split_ifs with hnone
  · have hone := hzero.mp hnone
    simp only [AccountedAt]
    omega
  · have hmore : held + object.cls.owners ≠ 1 := fun hone => hnone (hzero.mpr hone)
    refine ⟨by simp only; omega, ?_⟩
    have hsum : held - 1 + object.cls.owners = held + object.cls.owners - 1 := by omega
    simp only [h.less hheld, hsum]

/-- A new object has one reference. -/
theorem accountedAt_new {cls : Class} {held : ℕ} (hone : held + cls.owners = 1) :
    AccountedAt (some ⟨cls, 1⟩) held := by
  refine ⟨by simp [hone], ?_⟩
  simp only [hone]
  rfl

theorem constructed_snoc : Constructed (tr ++ [x]) ↔ Constructed tr ∨ x.act.ConstructsProvider := by
  simp [Constructed, or_and_right, exists_or]

/-- What has not been created is not held. -/
theorem Accounted.unheld (h : Accounted tr s) {o : ℕ} (ho : s.created ≤ o) : s.held o = 0 := by
  have hcount := h.counts o
  rw [h.fresh o ho] at hcount
  exact hcount

/-- What is there has been created. -/
theorem Accounted.below (h : Accounted tr s) {o : ℕ} {object : Object}
    (hobject : s.objects o = some object) : o < s.created := by
  by_contra hfresh
  rw [h.fresh o (not_lt.mp hfresh)] at hobject
  cases hobject

/-- One object changes, with the references to it. -/
theorem counts_update {objects : Pointer → Option Object} {held : Pointer → ℕ}
    (h : ∀ p, AccountedAt (objects p) (held p)) {object : Option Object} {n : ℕ}
    (hobject : AccountedAt object n) (o : Pointer) :
    ∀ p, AccountedAt (Function.update objects o object p) (Function.update held o n p) := by
  intro p
  by_cases hpo : p = o
  · subst hpo
    simpa using hobject
  · simpa [hpo] using h p

/-- **A step that changes one object**, creates no provider, and leaves the credentials. -/
theorem Accounted.replace (h : Accounted tr x.pre) (hcall : ¬ x.act.ConstructsProvider) {o n : ℕ}
    {object : Option Object} (hobjects : x.post.objects = Function.update x.pre.objects o object)
    (hheld : x.post.held = Function.update x.pre.held o n)
    (hcreated : x.pre.created ≤ x.post.created) (hbelow : o < x.post.created)
    (hcount : AccountedAt object n)
    (hcredential : object.map Object.cls = some .credential ↔ x.pre.CredentialAt o) :
    Accounted (tr ++ [x]) x.post := by
  refine ⟨?_, fun p hp => ?_, ?_⟩
  · rw [hobjects, hheld]
    exact counts_update h.counts hcount o
  · have hpo : p ≠ o := (lt_of_lt_of_le hbelow hp).ne'
    rw [hobjects, Function.update_of_ne hpo]
    exact h.fresh p (hcreated.trans hp)
  · rw [constructed_snoc, or_iff_left hcall, ← h.credential]
    refine exists_congr fun p => ?_
    rw [ComState.CredentialAt, hobjects]
    by_cases hpo : p = o
    · rw [hpo, Function.update_self]
      exact hcredential
    · rw [Function.update_of_ne hpo, ComState.CredentialAt]

/-- A credential and a provider are created, and the provider is handed out or not. -/
theorem Accounted.construct (h : Accounted tr x.pre) (hcall : x.act.ConstructsProvider) {n : ℕ}
    {provider : Option Object}
    (hobjects : x.post.objects = Function.update
      (Function.update x.pre.objects x.pre.created (some ⟨.credential, 1⟩)) (x.pre.created + 1)
      provider)
    (hheld : x.post.held = Function.update x.pre.held (x.pre.created + 1) n)
    (hcreated : x.post.created = x.pre.created + 2) (hcount : AccountedAt provider n) :
    Accounted (tr ++ [x]) x.post := by
  have hunheld := h.unheld (o := x.pre.created) le_rfl
  -- the credential has the reference of its provider only
  have howned : AccountedAt (some ⟨.credential, 1⟩) (x.pre.held x.pre.created) :=
    accountedAt_new (by rw [hunheld]; rfl)
  have hcounts := counts_update h.counts howned x.pre.created
  rw [Function.update_eq_self] at hcounts
  refine ⟨?_, fun p hp => ?_, ?_⟩
  · rw [hobjects, hheld]
    exact counts_update hcounts hcount (x.pre.created + 1)
  · have hpo : p ≠ x.pre.created := by omega
    have hpo' : p ≠ x.pre.created + 1 := by omega
    rw [hobjects, Function.update_of_ne hpo', Function.update_of_ne hpo]
    exact h.fresh p (by omega)
  · rw [constructed_snoc, iff_true_right (Or.inr hcall)]
    refine ⟨x.pre.created, ?_⟩
    rw [ComState.CredentialAt, hobjects]
    simp

/-- Handed out, a new object is held once, and otherwise it is gone and not held. -/
theorem Accounted.counted_given (h : Accounted tr s) {o : ℕ} (ho : s.created ≤ o) (given : Bool)
    {cls : Class} (howners : cls.owners = 0) :
    AccountedAt (if given then some ⟨cls, 1⟩ else none) (if given then s.held o + 1 else 0) := by
  have hunheld := h.unheld ho
  cases given with
  | true => exact accountedAt_new (by simp [hunheld, howners])
  | false => rfl

/-- The references of the client after a creation. -/
theorem Accounted.held_given (h : Accounted tr s) {o : ℕ} (ho : s.created ≤ o) (given : Bool) :
    (if given then Function.update s.held o (s.held o + 1) else s.held) =
      Function.update s.held o (if given then s.held o + 1 else 0) := by
  cases given with
  | true => rfl
  | false =>
      simp only [Bool.false_eq_true, if_false]
      rw [← h.unheld ho, Function.update_eq_self]

theorem Accounted.step (hdoes : comMachine.Does x) (hexact : ¬ WrapsAround x)
    (h : Accounted tr x.pre) : Accounted (tr ++ [x]) x.post := by
  have hstep := reference_step hdoes
  have hreplace := h.replace
  have hconstruct := h.construct
  obtain ⟨s, call, answer, s'⟩ := x
  simp only at hstep h hreplace hconstruct ⊢
  cases hstep with
  | same hcall hobjects hcreated hheld =>
      refine ⟨fun o => ?_, fun o ho => ?_, ?_⟩
      · rw [hobjects, hheld]
        exact h.counts o
      · rw [hobjects]
        exact h.fresh o (hcreated ▸ ho)
      · rw [constructed_snoc, or_iff_left hcall.2, ← h.credential]
        simp only [ComState.CredentialAt, hobjects]
  | @gains _ _ o object hcall hobject hobjects hcreated hheld =>
      have hcount := h.counts o
      rw [hobject] at hcount
      apply hreplace hcall.2 hobjects hheld hcreated.ge (hcreated ▸ h.below hobject) hcount.gain
      rw [ComState.CredentialAt, hobject]
      rfl
  | @releases _ o object hobject hpositive hobjects hcreated hheld =>
      have hcount := h.counts o
      rw [hobject] at hcount
      have hleft : ¬ (0 < s.held o + object.cls.owners - 1 ∧
          UInt32.size ∣ s.held o + object.cls.owners - 1) := by
        have hreferences : s.references o = s.held o + object.cls.owners := by
          simp [ComState.references, hobject]
        rw [← hreferences]
        exact fun hwraps => hexact ⟨o, rfl, hwraps⟩
      refine hreplace (fun h => h) hobjects hheld hcreated.ge (hcreated ▸ h.below hobject)
        (hcount.release hpositive hleft) ?_
      rw [ComState.CredentialAt, hobject]
      split_ifs with hzero
      · -- a credential still has the reference its provider owns
        have hcls : object.cls ≠ .credential := by
          intro hcls
          have hone := (hcount.left hpositive hleft).mp hzero
          simp only [hcls, Class.owners] at hone
          omega
        simp [hcls]
      · rfl
  | factory hcall given hobjects hcreated hheld =>
      rw [h.held_given le_rfl] at hheld
      refine hreplace hcall.2 hobjects hheld (by omega) (by omega)
        (h.counted_given le_rfl given rfl) ?_
      rw [ComState.CredentialAt, h.fresh s.created le_rfl]
      cases given <;> simp
  | provider hcall given hobjects hcreated hheld =>
      rw [h.held_given (Nat.le_succ _)] at hheld
      exact hconstruct hcall hobjects hheld hcreated (h.counted_given (Nat.le_succ _) given rfl)

theorem accounted (hrun : Run comMachine ComState.initial tr s)
    (hexact : Along (fun _ x => ¬ WrapsAround x) tr) : Accounted tr s :=
  Run.induction hrun hexact accounted_initial fun _ _ _ _ hx hdoes h => h.step hdoes hx

/-! ## The result -/

/-- In an accounted state nothing that is held has been destroyed. -/
theorem Accounted.held (h : Accounted tr s) (hheld : 0 < s.held o) : s.objects o ≠ none := by
  intro hnone
  have hcount := h.counts o
  rw [hnone] at hcount
  exact absurd hcount hheld.ne'

/-- When the client has released everything, what is left is the credentials. -/
theorem Accounted.released_iff (h : Accounted tr s) (hreleased : s.Released) :
    (∀ o, s.objects o = none) ↔ ¬ Constructed tr := by
  rw [← h.credential]
  constructor
  · rintro hnone ⟨o, ho⟩
    rw [ComState.CredentialAt, hnone o] at ho
    cases ho
  · intro hcredential o
    cases hobject : s.objects o with
    | none => rfl
    | some object =>
        have hcount := h.counts o
        rw [hobject, hreleased o] at hcount
        have howners : 0 < object.cls.owners := by simpa using hcount.1
        refine absurd ⟨o, ?_⟩ hcredential
        rw [ComState.CredentialAt, hobject]
        cases hcls : object.cls with
        | credential => simp [hcls]
        | _ => simp [hcls, Class.owners] at howners

/-- A count that wraps around destroys what is held. -/
theorem not_wrapsAround (hdoes : comMachine.Does x) (h : Accounted tr x.pre)
    (hheld : ∀ o, 0 < x.post.held o → x.post.objects o ≠ none) : ¬ WrapsAround x := by
  rintro ⟨o, hact, hpositive, hdvd⟩
  have hstep := reference_step hdoes
  obtain ⟨s, call, answer, s'⟩ := x
  simp only at hstep h hact hpositive hdvd hheld
  subst hact
  cases hstep with
  | same hcall | gains hcall | factory hcall => exact hcall.1 o rfl
  | provider hcall => exact hcall
  | @releases _ _ object hobject hone hobjects hcreated hafter =>
      have hcount := h.counts o
      have howners : object.cls.owners ≤ 1 := by cases object.cls <;> simp [Class.owners]
      have hreferences : s.references o = s.held o + object.cls.owners := by
        simp [ComState.references, hobject]
      rw [hobject] at hcount
      rw [hreferences] at hpositive hdvd
      have hsize := Nat.le_of_dvd hpositive hdvd
      have hmany : 1 < UInt32.size := by decide
      have hstill : 0 < s'.held o := by
        rw [hafter, Function.update_self]
        omega
      have hzero : object.references - 1 = 0 := by
        rw [hcount.less hone, ofNat_eq_zero_iff]
        exact hdvd
      exact hheld o hstill (by rw [hobjects, Function.update_self, if_pos hzero])

/-- **The law holds throughout a run exactly if no count wraps around and the client, once a
provider has been created, is never without a reference.** -/
theorem references_iff (hrun : Run comMachine ComState.initial tr s) :
    Along (fun _ x => x.post.Conserves) tr ↔ Along Counted tr := by
  constructor
  · intro hlaw
    have hexact : Along (fun _ x => ¬ WrapsAround x) tr := by
      refine (hrun.induction (P := fun tr s => Accounted tr s ∧ Along (fun _ x => ¬ WrapsAround x) tr)
        hlaw ⟨accounted_initial, .nil⟩ ?_).2
      intro tr x _ _ hx hdoes ⟨haccounted, hbefore⟩
      have hwraps := not_wrapsAround hdoes haccounted hx.held
      exact ⟨haccounted.step hdoes hwraps, Along.snoc_iff.mpr ⟨hbefore, hwraps⟩⟩
    rintro pre x post rfl
    obtain ⟨hpre, hdoes⟩ := hrun.split
    have hafter := accounted (hpre.snoc hdoes) hexact.through
    refine ⟨hexact pre x post rfl, fun hreleased y hy hconstructs => ?_⟩
    have hnone := (hlaw pre x post rfl).released hreleased
    exact (hafter.released_iff hreleased).mp hnone ⟨y, hy, hconstructs⟩
  · rintro hcounted pre x post rfl
    obtain ⟨hpre, hdoes⟩ := hrun.split
    have hafter := accounted (hpre.snoc hdoes) (hcounted.mono fun _ _ h => h.exact).through
    refine ⟨fun o => hafter.held, fun hreleased => (hafter.released_iff hreleased).mpr ?_⟩
    rintro ⟨y, hy, hconstructs⟩
    exact (hcounted pre x post rfl).holds hreleased y hy hconstructs

/-! ## Short runs -/

/-- A call hands out one reference at most. -/
theorem held_le (hrun : Run comMachine ComState.initial tr s) : ∀ o, s.held o ≤ tr.length := by
  apply Run.history (P := fun tr s => ∀ o, s.held o ≤ tr.length) hrun (fun _ => le_rfl)
  intro tr x _ hdoes h o
  have hstep := reference_step hdoes
  obtain ⟨s, call, answer, s'⟩ := x
  simp only at hstep h ⊢
  have hbound := h o
  have hone : ∀ p n, n ≤ s.held p + 1 → Function.update s.held p n o ≤ s.held o + 1 := by
    intro p n hn
    by_cases hpo : o = p
    · simpa [hpo] using hn
    · simp [hpo]
  have hgrows : s'.held o ≤ s.held o + 1 := by
    cases hstep with
    | same _ _ _ hheld =>
        rw [hheld]
        exact Nat.le_succ _
    | gains _ _ _ _ hheld =>
        rw [hheld]
        exact hone _ _ le_rfl
    | releases _ _ _ _ hheld =>
        rw [hheld]
        exact hone _ _ (by omega)
    | factory _ given _ _ hheld | provider _ given _ _ hheld =>
        rw [hheld]
        cases given with
        | true => exact hone _ _ le_rfl
        | false => exact Nat.le_succ _
  rw [List.length_append, List.length_singleton]
  omega

/-- **No count wraps around in a run of less than 2^32 calls.** -/
theorem exact_of_short (hrun : Run comMachine ComState.initial tr s)
    (hshort : tr.length < UInt32.size) : Along (fun _ x => ¬ WrapsAround x) tr := by
  rintro pre x post rfl ⟨o, -, hpositive, hdvd⟩
  have hsize := Nat.le_of_dvd hpositive hdvd
  have hheld := held_le hrun.split.1 o
  have howners : ((x.pre.objects o).map fun object => object.cls.owners).getD 0 ≤ 1 := by
    cases x.pre.objects o with
    | none => exact Nat.zero_le _
    | some object => cases hcls : object.cls <;> simp [hcls, Class.owners]
  simp only [ComState.references] at hsize
  simp only [List.length_append, List.length_cons] at hshort
  omega

/-- A client that copies the reference to its class factory, and releases everything but the
factory: a provider, and the provider's credential. -/
def credentialCalls : List Call :=
  [.dllGetClassObject clsidOpenBio .classFactory true true, .addRef 0,
    .createInstance 0 false .credentialProvider true true true, .getCredentialAt 2 0 true,
    .release 1, .release 2, .release 0]

theorem references_iff_credentialCalls :
    (comMachine.trace ComState.initial credentialCalls).length = 7 ∧
      (comMachine.final ComState.initial credentialCalls).held 0 = 1 ∧
      (comMachine.final ComState.initial credentialCalls).objects 1 = some ⟨.credential, 1⟩ ∧
      (comMachine.final ComState.initial credentialCalls).objects 2 = none ∧
      Along (fun _ x => x.post.Conserves) (comMachine.trace ComState.initial credentialCalls) := by
  have hlength : (comMachine.trace ComState.initial credentialCalls).length = 7 := by
    decide +kernel
  -- the client has the factory after every call
  have hfactory : ∀ x ∈ comMachine.trace ComState.initial credentialCalls, x.post.held 0 ≠ 0 := by
    decide +kernel
  have hrun := Run.trace comMachine ComState.initial credentialCalls
  have hcounted : Along Counted (comMachine.trace ComState.initial credentialCalls) := by
    intro pre x post htr
    have hx := hfactory x (by rw [htr]; simp)
    exact ⟨exact_of_short hrun (by rw [hlength]; decide) pre x post htr,
      fun hreleased => absurd (hreleased 0) hx⟩
  exact ⟨hlength, by decide +kernel, by decide +kernel, by decide +kernel,
    (references_iff hrun).mpr hcounted⟩

/-- A client that creates a provider and releases everything. -/
def cleanCalls : List Call :=
  [.dllGetClassObject clsidOpenBio .classFactory true true,
    .createInstance 0 false .credentialProvider true true true, .release 2, .release 0]

/-- The credential of the provider is left. -/
theorem references_fails :
    let s := comMachine.final ComState.initial cleanCalls
    s.Released ∧ s.objects 1 = some ⟨.credential, 1⟩ ∧
      ¬ ∀ tr s, Run comMachine ComState.initial tr s →
        Along (fun _ x => x.post.Conserves) tr := by
  have hreleased : (comMachine.final ComState.initial cleanCalls).Released := by
    intro o
    rcases o with _ | _ | _ | o <;> rfl
  have hleft : (comMachine.final ComState.initial cleanCalls).objects 1 =
      some ⟨.credential, 1⟩ := by decide +kernel
  refine ⟨hreleased, hleft, fun h => ?_⟩
  have hrun := Run.trace comMachine ComState.initial cleanCalls
  have hlaw := hrun.at_end (P := fun _ s => s.Conserves) (h _ _ hrun)
    (List.ne_nil_of_length_pos (by decide +kernel))
  rw [hlaw.released hreleased 1] at hleft
  cases hleft

end OpenBioUnlock.Windows

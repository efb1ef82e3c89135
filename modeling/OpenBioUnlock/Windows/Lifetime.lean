import OpenBioUnlock.Windows.Module

/-!
# When the module may be unloaded

`DllCanUnloadNow` goes by `module_locks`, and `module_locks` counts the server locks
and nothing else: no creation and no deletion of an object touches it.  So it says
what it should about the locks (`locks_run`), and nothing about references.

`lifetime_iff` draws the line, state by state and for runs as a whole.  The first
class factory handed out already makes the difference: its client holds a reference,
and no lock yet.
-/

namespace OpenBioUnlock.Windows

open Runs

/-- The client holds no reference and no lock. -/
def ComState.HoldsNothing (s : ComState) : Prop :=
  (∀ o, s.held o = 0) ∧ s.locks = 0

/-- **`DllCanUnloadNow` returns `S_OK` only when nothing is in use.** -/
def ComState.UnloadsSafely (s : ComState) : Prop :=
  s.dllCanUnloadNow = sOk → s.HoldsNothing

/-- The call asks for a class factory that can be handed out. -/
def Call.AsksForFactory : Call → Prop
  | .dllGetClassObject clsid riid place memory =>
      clsid = clsidOpenBio ∧ (riid = .unknown ∨ riid = .classFactory) ∧ place = true ∧ memory = true
  | _ => False

variable {d : Dll} {s : ComState} {x : ComEntry} {tr : List ComEntry}

/-! ## What the calls do to `module_locks` -/

namespace Dll

/-- Whatever the call gives, `module_locks` is as before. -/
def KeepsLocks {α : Type} (d : Dll) (r : Option (Dll × α)) : Prop :=
  ∀ p, r = some p → p.1.moduleLocks = d.moduleLocks

theorem keepsLocks_some {α : Type} {a : α} : d.KeepsLocks (some (d, a)) := by
  rintro p ⟨⟩
  rfl

theorem KeepsLocks.map {α β : Type} {r : Option (Dll × α)} (h : d.KeepsLocks r) (f : α → β) :
    d.KeepsLocks (r.map fun p => (p.1, f p.2)) := by
  intro p hp
  obtain ⟨q, hq, rfl⟩ := Option.map_eq_some_iff.mp hp
  exact h q hq

theorem KeepsLocks.bind {α β : Type} {r : Option (Dll × α)} {f : Dll × α → Option (Dll × β)}
    (h : d.KeepsLocks r) (hf : ∀ q : Dll × α, q.1.KeepsLocks (f q)) : d.KeepsLocks (r.bind f) := by
  intro p hp
  obtain ⟨q, hq, hfq⟩ := Option.bind_eq_some_iff.mp hp
  exact (hf q p hfq).trans (h q hq)

theorem keepsLocks_addRef (d : Dll) (o : Pointer) : d.KeepsLocks (d.addRef o) := by
  intro p hp
  obtain ⟨object, -, rfl⟩ := Option.map_eq_some_iff.mp hp
  rfl

theorem keepsLocks_release (d : Dll) (o : Pointer) : d.KeepsLocks (d.release o) := by
  intro p hp
  obtain ⟨object, -, rfl⟩ := Option.map_eq_some_iff.mp hp
  rfl

theorem keepsLocks_queryInterface (d : Dll) (o : Pointer) (riid : Iid) (place : Bool) :
    d.KeepsLocks (d.queryInterface o riid place) := by
  intro p hp
  obtain ⟨object, -, hp⟩ := Option.bind_eq_some_iff.mp hp
  split_ifs at hp
  · exact keepsLocks_some p hp
  · exact (keepsLocks_addRef d o).map (fun _ => Answer.result sOk (some o)) p hp
  · exact keepsLocks_some p hp

theorem keepsLocks_handOut (d : Dll) (o : Pointer) (riid : Iid) (place : Bool) :
    d.KeepsLocks (d.handOut o riid place) :=
  (keepsLocks_queryInterface d o riid place).bind fun q =>
    (keepsLocks_release q.1 o).map fun _ => q.2

theorem keepsLocks_dllGetClassObject (d : Dll) (clsid : Guid) (riid : Iid) (place memory : Bool) :
    d.KeepsLocks (d.dllGetClassObject clsid riid place memory) := by
  unfold dllGetClassObject
  split_ifs
  · exact keepsLocks_some
  · exact keepsLocks_some
  · exact keepsLocks_handOut (d.new .factory).1 _ _ _

theorem keepsLocks_createInstance (d : Dll) (outer : Bool) (riid : Iid)
    (place memory credentialMemory : Bool) :
    d.KeepsLocks (d.createInstance outer riid place memory credentialMemory) := by
  unfold createInstance
  split_ifs
  · exact keepsLocks_some
  · exact keepsLocks_some
  · exact keepsLocks_some
  · exact keepsLocks_handOut ((d.new .credential).1.new (.provider d.created)).1 _ _ _

theorem keepsLocks_getCredentialAt (d : Dll) (credential : Pointer) (index : UInt32)
    (place : Bool) : d.KeepsLocks (d.getCredentialAt credential index place) := by
  unfold getCredentialAt
  split_ifs
  · exact keepsLocks_some
  · exact (keepsLocks_addRef d credential).map fun _ => Answer.result sOk (some credential)

/-- **A new object is handed out** if there is a place for it and it has the interface, and
is deleted again otherwise. -/
theorem handOut_eq {o : Pointer} {cls : Class} (hnew : d.objects o = some ⟨cls, 1⟩) (riid : Iid)
    (place : Bool) :
    d.handOut o riid place =
      some (if (riid = .unknown ∨ riid = cls.interface) ∧ place = true then
          (d, .result sOk (some o))
        else (d.put o none, .result (if place then eNoInterface else ePointer) none)) := by
  have hdeleted : d.release o = some (d.put o none, 0) := by
    simp [release, hnew]
  cases place with
  | false => simp [handOut, queryInterface, hnew, hdeleted]
  | true =>
      by_cases hriid : riid = .unknown ∨ riid = cls.interface
      · -- the reference handed out is the one the creator gives up
        have hput : (d.put o (some ⟨cls, 2⟩)).put o (some ⟨cls, 1⟩) = d := by
          simp only [put, Function.update_idem, ← hnew, Function.update_eq_self]
        have hreleased : (d.put o (some ⟨cls, 2⟩)).release o =
            some ((d.put o (some ⟨cls, 2⟩)).put o (some ⟨cls, 1⟩), 1) := by
          simp [release, put]
        simp [handOut, queryInterface, addRef, hnew, hriid, hreleased, hput]
      · simp [handOut, queryInterface, hnew, hriid, hdeleted]

end Dll

/-! ## The locks -/

/-- What a call other than `LockServer` leaves. -/
theorem locks_after {r : Option (Dll × Answer)} (h : s.toDll.KeepsLocks r) {p : ComState × Answer}
    (hp : r.map s.after = some p) : p.1.moduleLocks = s.moduleLocks ∧ p.1.locks = s.locks := by
  obtain ⟨q, hq, rfl⟩ := Option.map_eq_some_iff.mp hp
  exact ⟨h q hq, rfl⟩

/-- What a step does to the locks: nothing, or one more or less on both sides. -/
theorem locks_step (hdoes : comMachine.Does x) :
    (x.post.moduleLocks = x.pre.moduleLocks ∧ x.post.locks = x.pre.locks) ∨
      (x.post.moduleLocks = x.pre.moduleLocks + 1 ∧ x.post.locks = x.pre.locks + 1) ∨
      (x.post.moduleLocks = x.pre.moduleLocks - 1 ∧ x.pre.locks = x.post.locks + 1) := by
  obtain ⟨pre, call, out, post⟩ := x
  have h : pre.step call = some (post, out) := hdoes
  -- only `LockServer` is more than a frame
  cases call with
  | dllGetClassObject clsid riid place memory =>
      exact Or.inl (locks_after (Dll.keepsLocks_dllGetClassObject _ _ _ _ _) h)
  | createInstance factory outer riid place memory credentialMemory =>
      simp only [ComState.step] at h
      split at h
      · exact Or.inl (locks_after (Dll.keepsLocks_createInstance _ _ _ _ _ _) h)
      · cases h
  | getCredentialAt provider index place =>
      simp only [ComState.step] at h
      split at h
      · exact Or.inl (locks_after (Dll.keepsLocks_getCredentialAt _ _ _ _) h)
      · cases h
  | queryInterface o riid place =>
      simp only [ComState.step] at h
      split at h
      · exact Or.inl (locks_after (Dll.keepsLocks_queryInterface _ _ _ _) h)
      · cases h
  | addRef o =>
      simp only [ComState.step] at h
      split at h
      · obtain ⟨p, hp, hpost⟩ := Option.map_eq_some_iff.mp h
        cases hpost
        exact Or.inl ⟨Dll.keepsLocks_addRef _ o p hp, rfl⟩
      · cases h
  | release o =>
      simp only [ComState.step] at h
      split at h
      · obtain ⟨p, hp, hpost⟩ := Option.map_eq_some_iff.mp h
        cases hpost
        exact Or.inl ⟨Dll.keepsLocks_release _ o p hp, rfl⟩
      · cases h
  | lockServer factory lock =>
      simp only [ComState.step] at h
      split at h
      · split_ifs at h with hlock hnone
        · cases h
          exact Or.inr (Or.inl ⟨rfl, rfl⟩)
        · cases h
          exact Or.inr (Or.inr ⟨rfl, (Nat.succ_pred hnone).symm⟩)
      · cases h

/-- **`module_locks` counts the server locks**, as far as 32 bits go. -/
theorem locks_run (hrun : Run comMachine ComState.initial tr s) :
    s.moduleLocks = UInt32.ofNat s.locks := by
  apply hrun.invariant (P := fun s => s.moduleLocks = UInt32.ofNat s.locks) rfl
  intro x hdoes ih
  rcases locks_step hdoes with ⟨hmodule, hlocks⟩ | ⟨hmodule, hlocks⟩ | ⟨hmodule, hlocks⟩
  · rw [hmodule, hlocks, ih]
  · rw [hmodule, hlocks, ih, UInt32.ofNat_add]
    rfl
  · rw [hlocks, UInt32.ofNat_add] at ih
    rw [hmodule, ih]
    exact add_sub_cancel_right _ _

/-- What 32 bits take for zero. -/
theorem ofNat_eq_zero_iff {n : ℕ} : UInt32.ofNat n = 0 ↔ UInt32.size ∣ n := by
  rw [← UInt32.toNat_inj, UInt32.toNat_ofNat']
  exact (Nat.dvd_iff_mod_eq_zero).symm

/-- **What `S_OK` means in a state of a run.** -/
theorem unloadsSafely_iff (hrun : Run comMachine ComState.initial tr s) :
    s.UnloadsSafely ↔ ¬ UInt32.size ∣ s.locks ∨ s.HoldsNothing := by
  have hcode : s.dllCanUnloadNow = sOk ↔ UInt32.size ∣ s.locks := by
    rw [← ofNat_eq_zero_iff, ← locks_run hrun, Dll.dllCanUnloadNow]
    split_ifs with hlocks
    · exact iff_of_true rfl hlocks
    · exact iff_of_false (by decide) hlocks
  rw [ComState.UnloadsSafely, hcode, imp_iff_not_or]

/-! ## The references -/

/-- What is not held cannot be called. -/
theorem ComState.HoldsNothing.classOf (h : s.HoldsNothing) (o : Pointer) : s.classOf o = none := by
  rw [ComState.classOf, h.1 o]
  rfl

/-- `DllGetClassObject` hands out nothing that was not asked for. -/
theorem asks_of_object {clsid : Guid} {riid : Iid} {place memory : Bool} {p : Dll × Answer}
    (hp : d.dllGetClassObject clsid riid place memory = some p) (hsome : p.2.object ≠ none) :
    (Call.dllGetClassObject clsid riid place memory).AsksForFactory := by
  unfold Dll.dllGetClassObject at hp
  split_ifs at hp with hclsid hmemory
  · cases hp
    exact absurd rfl hsome
  · cases hp
    exact absurd rfl hsome
  · have hnew : (d.new .factory).1.objects d.created = some ⟨.factory, 1⟩ := by
      simp [Dll.new, Dll.put]
    have hgiven := (Dll.handOut_eq hnew riid place).symm.trans hp
    by_cases hsupported : (riid = .unknown ∨ riid = Class.factory.interface) ∧ place = true
    · exact ⟨not_not.mp hclsid, hsupported.1, hsupported.2, by simpa using hmemory⟩
    · rw [if_neg hsupported] at hgiven
      cases hgiven
      exact absurd rfl hsome

/-- A client that holds nothing can only ask for a class factory. -/
theorem holdsNothing_step (hdoes : comMachine.Does x) (hnothing : x.pre.HoldsNothing)
    (hasks : ¬ x.act.AsksForFactory) : x.post.HoldsNothing := by
  obtain ⟨pre, call, out, post⟩ := x
  have h : pre.step call = some (post, out) := hdoes
  cases call with
  | dllGetClassObject clsid riid place memory =>
      obtain ⟨p, hp, hpost⟩ := Option.map_eq_some_iff.mp h
      have hnone : p.2.object = none := by
        by_contra hsome
        exact hasks (asks_of_object hp hsome)
      cases hpost
      refine ⟨fun o => ?_, hnothing.2⟩
      simp only [hnone]
      exact hnothing.1 o
  | createInstance | getCredentialAt | queryInterface | addRef | release | lockServer =>
      simp only [ComState.step, hnothing.classOf] at h
      cases h

/-- A class factory that is asked for is handed out. -/
theorem held_of_asks (hdoes : comMachine.Does x) (hasks : x.act.AsksForFactory) :
    (∃ o, 0 < x.post.held o) ∧ x.post.locks = x.pre.locks := by
  obtain ⟨pre, call, out, post⟩ := x
  cases call with
  | dllGetClassObject clsid riid place memory =>
      obtain ⟨rfl, hriid, rfl, rfl⟩ := hasks
      have h : (pre.toDll.dllGetClassObject clsidOpenBio riid true true).map pre.after =
        some (post, out) := hdoes
      have hnew : (pre.toDll.new .factory).1.objects pre.created = some ⟨.factory, 1⟩ := by
        simp [Dll.new, Dll.put]
      have hgiven : pre.toDll.dllGetClassObject clsidOpenBio riid true true =
          some ((pre.toDll.new .factory).1, .result sOk (some pre.created)) :=
        (Dll.handOut_eq hnew riid true).trans (congrArg some (if_pos ⟨hriid, rfl⟩))
      rw [hgiven] at h
      cases h
      exact ⟨⟨pre.created, by simp [Answer.object]⟩, rfl⟩
  | _ => exact hasks.elim

/-! ## The law -/

/-- In a run that is safe throughout the client is handed no class factory, and so has
nothing in the end. -/
theorem holdsNothing_of_safe (hrun : Run comMachine ComState.initial tr s)
    (hsafe : Along (fun _ x => x.post.UnloadsSafely) tr) :
    (∀ x ∈ tr, ¬ x.act.AsksForFactory) ∧ s.HoldsNothing := by
  refine hrun.induction (P := fun tr s => (∀ x ∈ tr, ¬ x.act.AsksForFactory) ∧ s.HoldsNothing)
    hsafe ⟨by simp, fun _ => rfl, rfl⟩ ?_
  intro tr x hpre _ hx hdoes ⟨hnone, hnothing⟩
  have hasks : ¬ x.act.AsksForFactory := by
    intro hasks
    obtain ⟨⟨o, hheld⟩, hlocks⟩ := held_of_asks hdoes hasks
    rw [hnothing.2] at hlocks
    -- held, and no lock that could have been taken before
    rcases (unloadsSafely_iff (hpre.snoc hdoes)).mp hx with hlocked | hposted
    · exact hlocked (hlocks ▸ Nat.dvd_zero _)
    · exact absurd (hposted.1 o) hheld.ne'
  refine ⟨fun y hy => ?_, holdsNothing_step hdoes hnothing hasks⟩
  rcases List.mem_append.mp hy with hy | hy
  · exact hnone y hy
  · rw [List.mem_singleton.mp hy]
    exact hasks

/-- A client that asks for no class factory never holds anything. -/
theorem holdsNothing_run (hrun : Run comMachine ComState.initial tr s)
    (hnone : Along (fun _ x => ¬ x.act.AsksForFactory) tr) : s.HoldsNothing := by
  refine hrun.induction (P := fun _ s => s.HoldsNothing) hnone ⟨fun _ => rfl, rfl⟩ ?_
  intro tr x _ _ hx hdoes hnothing
  exact holdsNothing_step hdoes hnothing hx

/-- **A state of a run may be unloaded safely exactly if a server lock is held, counted
to 32 bits, or nothing is; all states of a run, exactly if no class factory is handed
out in it.** -/
theorem lifetime_iff (hrun : Run comMachine ComState.initial tr s) :
    (s.UnloadsSafely ↔ ¬ UInt32.size ∣ s.locks ∨ s.HoldsNothing) ∧
      (Along (fun _ x => x.post.UnloadsSafely) tr ↔ ∀ x ∈ tr, ¬ x.act.AsksForFactory) := by
  refine ⟨unloadsSafely_iff hrun, fun hsafe => (holdsNothing_of_safe hrun hsafe).1, ?_⟩
  rintro hnone pre x post rfl
  obtain ⟨hpre, hdoes⟩ := hrun.split
  exact fun _ => holdsNothing_run (hpre.snoc hdoes) (Along.of_forall_mem hnone).through

/-- A client that creates a provider, with the server locked or not, and keeps only
that. -/
def providerCalls (lock : Bool) : List Call :=
  [.dllGetClassObject clsidOpenBio .classFactory true true] ++
    (if lock then [.lockServer 0 true] else []) ++
    [.createInstance 0 false .credentialProvider true true true, .release 0]

theorem lifetime_sample :
    let s := comMachine.final ComState.initial (providerCalls true)
    s.held 2 = 1 ∧ s.locks = 1 ∧ s.UnloadsSafely := by
  have hrun := Run.trace comMachine ComState.initial (providerCalls true)
  refine ⟨by decide +kernel, by decide +kernel, (lifetime_iff hrun).1.mpr (Or.inl ?_)⟩
  decide +kernel

/-- The provider is held, and the module would be unloaded. -/
theorem lifetime_fails :
    let s := comMachine.final ComState.initial (providerCalls false)
    s.held 2 = 1 ∧ s.dllCanUnloadNow = sOk ∧
      ¬ ∀ tr s, Run comMachine ComState.initial tr s → s.UnloadsSafely := by
  have hheld : (comMachine.final ComState.initial (providerCalls false)).held 2 = 1 := by
    decide +kernel
  have hcode : (comMachine.final ComState.initial (providerCalls false)).dllCanUnloadNow = sOk := by
    decide +kernel
  refine ⟨hheld, hcode, fun h => ?_⟩
  have hnothing := h _ _ (Run.trace comMachine ComState.initial (providerCalls false)) hcode
  rw [hnothing.1 2] at hheld
  cases hheld

end OpenBioUnlock.Windows

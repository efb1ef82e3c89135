import Mathlib.Order.Basic
import OpenBioUnlock.Machine.Run

/-!
# A memory that forgets

The abstract behind a replay guard: a set of remembered keys that is now and
then forgotten as a whole.  An item is accepted when it is fresh at the time it
is presented and its key is not remembered when it is looked up, which may be a
little later; the lookup may wipe the memory first.

Forgetting is harmless exactly as far as what is forgotten cannot come back.
`accepted_nodup` says that no item is accepted twice when every wipe finds the
items accepted before it `Gone`: none of them is the one being looked up, and
none is ever fresh again.
-/

namespace Runs

universe u v w

/-- An item presented at a time, looked up at another, with whether the memory is
wiped for the lookup. -/
structure Presentation (ι : Type u) (τ : Type v) where
  item : ι
  time : τ
  lookup : τ
  wipe : Bool

section Forgetful

variable {ι : Type u} {τ : Type v} {κ : Type w} [DecidableEq κ]

/-- What is still remembered when the item is looked up. -/
def Presentation.kept (p : Presentation ι τ) (seen : List κ) : List κ :=
  if p.wipe then [] else seen

variable (key : ι → κ) (fresh : ι → τ → Bool)

/-- The memory: a stale item is refused before the memory is looked at. -/
def forgetful : Machine (List κ) (Presentation ι τ) Bool where
  step seen p :=
    if fresh p.item p.time then
      if key p.item ∈ p.kept seen then some (p.kept seen, false)
      else some (key p.item :: p.kept seen, true)
    else some (seen, false)

abbrev MemoryEntry (ι : Type u) (τ : Type v) (κ : Type w) :=
  Entry (List κ) (Presentation ι τ) Bool

/-- The item a step accepts. -/
def acceptedItem (x : MemoryEntry ι τ κ) : Option ι :=
  if x.out then some x.act.item else none

variable [Preorder τ]

/-- Time does not run backwards between the steps. -/
def Ordered (tr : List (MemoryEntry ι τ κ)) : Prop :=
  tr.Pairwise fun y x => y.act.lookup ≤ x.act.time

/-- The item is not fresh at `time` or at any later time. -/
def Dead (item : ι) (time : τ) : Prop :=
  ∀ later, time ≤ later → fresh item later = false

/-- A wipe that is carried out finds gone everything accepted before it: it is not
the item the memory is wiped for, and it is dead. -/
def WipesOnlyGone (tr : List (MemoryEntry ι τ κ)) (x : MemoryEntry ι τ κ) : Prop :=
  fresh x.act.item x.act.time = true → x.act.wipe = true →
    ∀ y ∈ tr, y.out = true → y.act.item ≠ x.act.item ∧ Dead fresh y.act.item x.act.lookup

variable {key fresh}
variable {s : List κ} {tr : List (MemoryEntry ι τ κ)} {x : MemoryEntry ι τ κ}

omit [Preorder τ] in
/-- An accepted item is fresh, and its key is remembered only if the memory is
wiped for it. -/
theorem accepts_does (hdoes : (forgetful key fresh).Does x) (hout : x.out = true) :
    fresh x.act.item x.act.time = true ∧
      (x.act.wipe = true ∨ key x.act.item ∉ x.pre) ∧ key x.act.item ∈ x.post := by
  simp only [Machine.Does, forgetful] at hdoes
  by_cases hfresh : fresh x.act.item x.act.time = true
  · rw [if_pos hfresh] at hdoes
    split at hdoes
    · simp only [Option.some.injEq, Prod.mk.injEq] at hdoes
      rw [hout] at hdoes
      exact absurd hdoes.2 (by simp)
    · rename_i hnew
      simp only [Option.some.injEq, Prod.mk.injEq] at hdoes
      refine ⟨hfresh, ?_, by simp [← hdoes.1]⟩
      cases hwipe : x.act.wipe with
      | true => exact Or.inl rfl
      | false => exact Or.inr (by simpa [Presentation.kept, hwipe] using hnew)
  · rw [if_neg hfresh] at hdoes
    simp only [Option.some.injEq, Prod.mk.injEq] at hdoes
    rw [hout] at hdoes
    exact absurd hdoes.2 (by simp)

omit [Preorder τ] in
/-- What is remembered stays so unless a fresh item wipes the memory. -/
theorem keeps_does (hdoes : (forgetful key fresh).Does x) {k : κ} (hk : k ∈ x.pre) :
    k ∈ x.post ∨ fresh x.act.item x.act.time = true ∧ x.act.wipe = true := by
  simp only [Machine.Does, forgetful] at hdoes
  by_cases hfresh : fresh x.act.item x.act.time = true
  · cases hwipe : x.act.wipe with
    | true => exact Or.inr ⟨hfresh, rfl⟩
    | false =>
        have hkept : x.act.kept x.pre = x.pre := by simp [Presentation.kept, hwipe]
        rw [if_pos hfresh, hkept] at hdoes
        left
        split at hdoes <;> simp only [Option.some.injEq, Prod.mk.injEq] at hdoes <;>
          rw [← hdoes.1]
        · exact hk
        · exact List.mem_cons_of_mem _ hk
  · rw [if_neg hfresh] at hdoes
    simp only [Option.some.injEq, Prod.mk.injEq] at hdoes
    exact Or.inl (hdoes.1 ▸ hk)

/-- Whatever was accepted is remembered, or dead since some step. -/
theorem remembered_or_dead {init : List κ} (hrun : Run (forgetful key fresh) init tr s)
    (hwipes : Along (WipesOnlyGone fresh) tr) :
    ∀ y ∈ tr, y.out = true →
      key y.act.item ∈ s ∨ ∃ z ∈ tr, Dead fresh y.act.item z.act.lookup := by
  refine Run.induction (P := fun tr s => ∀ y ∈ tr, y.out = true →
    key y.act.item ∈ s ∨ ∃ z ∈ tr, Dead fresh y.act.item z.act.lookup) hrun hwipes (by simp) ?_
  intro tr x _ _ hx hdoes ih y hy hout
  rcases List.mem_append.mp hy with hy | hy
  · rcases ih y hy hout with hseen | ⟨z, hz, hdead⟩
    · rcases keeps_does hdoes hseen with hkept | ⟨hfresh, hwipe⟩
      · exact Or.inl hkept
      · exact Or.inr ⟨x, by simp, (hx hfresh hwipe y hy hout).2⟩
    · exact Or.inr ⟨z, by simp [hz], hdead⟩
  · rw [List.mem_singleton] at hy
    subst hy
    exact Or.inl (accepts_does hdoes hout).2.2

/-- An item accepted before is not accepted by the next step. -/
theorem not_accepted_again {init : List κ} (hrun : Run (forgetful key fresh) init tr x.pre)
    (hwipes : Along (WipesOnlyGone fresh) tr) (hx : WipesOnlyGone fresh tr x)
    (hmono : ∀ y ∈ tr, y.act.lookup ≤ x.act.time) (hdoes : (forgetful key fresh).Does x)
    (hout : x.out = true) : ∀ y ∈ tr, y.out = true → y.act.item ≠ x.act.item := by
  intro y hy hyout hitem
  obtain ⟨hfresh, hnew, -⟩ := accepts_does hdoes hout
  rcases remembered_or_dead hrun hwipes y hy hyout with hseen | ⟨z, hz, hdead⟩
  · rcases hnew with hwipe | hnew
    · exact (hx hfresh hwipe y hy hyout).1 hitem
    · exact hnew (hitem ▸ hseen)
  · have hstale := hdead x.act.time (hmono z hz)
    rw [hitem, hfresh] at hstale
    cases hstale

/-- **Forgetting only what is gone is safe**: no item is accepted twice. -/
theorem accepted_nodup {init : List κ} (hrun : Run (forgetful key fresh) init tr s)
    (hordered : Ordered tr) (hwipes : Along (WipesOnlyGone fresh) tr) :
    (tr.filterMap acceptedItem).Nodup := by
  refine Run.induction (P := fun tr _ => (tr.filterMap acceptedItem).Nodup) hrun
    (hwipes.and (Along.of_pairwise hordered)) (by simp) ?_
  rintro tr x hpre htr ⟨hx, hmono⟩ hdoes ih
  rw [List.filterMap_append]
  cases hout : x.out with
  | false => simpa [acceptedItem, hout] using ih
  | true =>
      have hagain := not_accepted_again hpre (htr.mono fun _ _ h => h.1) hx hmono hdoes hout
      refine List.nodup_append.mpr ⟨ih, by simp [acceptedItem, hout], ?_⟩
      intro a ha b hb hab
      obtain ⟨y, hy, hya⟩ := List.mem_filterMap.mp ha
      simp only [List.filterMap_cons, acceptedItem, hout, if_true, List.filterMap_nil,
        List.mem_singleton] at hb
      cases hyout : y.out with
      | false => simp [acceptedItem, hyout] at hya
      | true =>
          simp only [acceptedItem, hyout, if_true, Option.some.injEq] at hya
          exact hagain y hy hyout (by rw [hya, hab, hb])

end Forgetful

end Runs

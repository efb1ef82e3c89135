import Mathlib.Data.List.Induction
import Mathlib.Order.Lattice
import OpenBioUnlock.Machine.Run

/-!
# Hysteresis

A switch that is driven by readings and has two thresholds.  It turns on at a
reading of at least `near`, and off at one below `far`; a reading between the two
leaves it as it is.

* `position` is where the switch stands after a list of readings, off at first, and
  `positions` where it stands after each of them.
* `HeldOn` says the same without the switch: some reading turned it on, and no
  later one turned it off.  `position_iff` is the equivalence, for `far ≤ near`.
* `hysteresis_band` is the reading in between, and `ends_atLeast_iff` compares the
  switch with one that has no memory.
-/

namespace Runs

universe u

section Last

variable {α : Type u}

/-- There is a last reading, and it satisfies `P`. -/
def Ends (P : α → Prop) (vs : List α) : Prop :=
  ∃ before v, vs = before ++ [v] ∧ P v

@[simp] theorem not_ends_nil (P : α → Prop) : ¬ Ends P [] := by
  rintro ⟨before, v, hnil, -⟩
  simp at hnil

@[simp] theorem ends_snoc {P : α → Prop} {vs : List α} {v : α} : Ends P (vs ++ [v]) ↔ P v := by
  constructor
  · rintro ⟨before, w, hvs, hw⟩
    obtain rfl := List.singleton_inj.mp (List.append_inj' hvs rfl).2
    exact hw
  · exact fun hv => ⟨vs, v, rfl, hv⟩

end Last

variable {α : Type u} [LinearOrder α]

section Switch

variable (near far : α)

/-- One reading. -/
def hysteresis (on : Bool) (v : α) : Bool :=
  if on then decide (far ≤ v) else decide (near ≤ v)

/-- Where the switch stands after the readings. -/
def position (vs : List α) : Bool :=
  vs.foldl (hysteresis near far) false

/-- Where it stands after each of them, from `on`. -/
def positionsFrom (on : Bool) : List α → List Bool
  | [] => []
  | v :: vs => hysteresis near far on v :: positionsFrom (hysteresis near far on v) vs

def positions (vs : List α) : List Bool :=
  positionsFrom near far false vs

/-- Some reading was at least `near`, and none after it was below `far`. -/
def HeldOn (vs : List α) : Prop :=
  ∃ before v after, vs = before ++ v :: after ∧ near ≤ v ∧ ∀ w ∈ after, far ≤ w

@[simp] theorem position_nil : position near far [] = false := rfl

@[simp] theorem position_snoc (vs : List α) (v : α) :
    position near far (vs ++ [v]) = hysteresis near far (position near far vs) v := by
  simp [position]

theorem positionsFrom_snoc (on : Bool) (vs : List α) (v : α) :
    positionsFrom near far on (vs ++ [v]) =
      positionsFrom near far on vs ++ [(vs ++ [v]).foldl (hysteresis near far) on] := by
  induction vs generalizing on with
  | nil => rfl
  | cons w vs ih => simpa [positionsFrom] using ih (hysteresis near far on w)

@[simp] theorem positions_snoc (vs : List α) (v : α) :
    positions near far (vs ++ [v]) = positions near far vs ++ [position near far (vs ++ [v])] :=
  positionsFrom_snoc near far false vs v

/-- The last of the positions is the position. -/
theorem getLast_positions (vs : List α) :
    (positions near far vs).getLast?.getD false = position near far vs := by
  rcases vs.eq_nil_or_concat with rfl | ⟨vs, v, rfl⟩
  · rfl
  · rw [List.concat_eq_append, positions_snoc]
    simp

end Switch

variable {near far : α} {vs : List α} {v : α} {on : Bool}

theorem hysteresis_eq_true_iff :
    hysteresis near far on v = true ↔ on = true ∧ far ≤ v ∨ on = false ∧ near ≤ v := by
  cases on <;> simp [hysteresis]

theorem not_heldOn_nil : ¬ HeldOn near far [] := by
  rintro ⟨before, v, after, hnil, -⟩
  simp at hnil

/-- The last reading turns the switch on, or it was on and stays so. -/
theorem heldOn_snoc :
    HeldOn near far (vs ++ [v]) ↔ near ≤ v ∨ HeldOn near far vs ∧ far ≤ v := by
  constructor
  · rintro ⟨before, w, after, hvs, hw, hafter⟩
    rcases snoc_split hvs with ⟨-, -, rfl⟩ | ⟨rest, rfl, rfl⟩
    · exact Or.inl hw
    · exact Or.inr ⟨⟨before, w, rest, rfl, hw, fun u hu => hafter u (by simp [hu])⟩,
        hafter v (by simp)⟩
  · rintro (hv | ⟨⟨before, w, after, rfl, hw, hafter⟩, hv⟩)
    · exact ⟨vs, v, [], rfl, hv, by simp⟩
    · refine ⟨before, w, after ++ [v], by simp, hw, fun u hu => ?_⟩
      rcases List.mem_append.mp hu with hu | hu
      · exact hafter u hu
      · rw [List.mem_singleton.mp hu]
        exact hv

/-- **The switch is on exactly if it was turned on and not off again.** -/
theorem position_iff (hle : far ≤ near) : position near far vs = true ↔ HeldOn near far vs := by
  induction vs using List.reverseRecOn with
  | nil => simp [not_heldOn_nil]
  | append_singleton vs v ih =>
      rw [position_snoc, hysteresis_eq_true_iff, heldOn_snoc, ← ih]
      cases position near far vs with
      | true =>
          constructor
          · rintro (⟨-, hv⟩ | ⟨hoff, -⟩)
            · exact Or.inr ⟨rfl, hv⟩
            · cases hoff
          · rintro (hv | ⟨-, hv⟩)
            · exact Or.inl ⟨rfl, le_trans hle hv⟩
            · exact Or.inl ⟨rfl, hv⟩
      | false => simp

/-- **Between the thresholds nothing changes.** -/
theorem hysteresis_band (hfar : far ≤ v) (hnear : v < near) : hysteresis near far on v = on := by
  cases on <;> simp [hysteresis, hfar, hnear]

/-- **A switch without a memory**, on exactly if the last reading is at least `near`,
stands as this one does unless the last reading is in between and this one is on. -/
theorem ends_atLeast_iff :
    (Ends (near ≤ ·) vs ↔ HeldOn near far vs) ↔
      ¬ (Ends (fun v => far ≤ v ∧ v < near) vs ∧ HeldOn near far vs) := by
  rcases vs.eq_nil_or_concat with rfl | ⟨vs, v, rfl⟩
  · simp [not_heldOn_nil]
  · rw [List.concat_eq_append, ends_snoc, ends_snoc, heldOn_snoc]
    rcases lt_or_ge v near with hv | hv
    · simp only [not_le.mpr hv, false_or, false_iff, hv, and_true]
      tauto
    · simp [hv, not_lt.mpr hv]

end Runs

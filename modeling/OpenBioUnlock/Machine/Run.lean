import Mathlib.Data.List.Basic
import Mathlib.Data.List.Nodup
import Mathlib.Data.List.Induction

/-!
# Runs of a machine

A **machine** is a partial step function: an action is refused in a state, or it
yields the next state and an output.  All nondeterminism — schedules, clock
readings, random draws, failures of a peer — is carried by the actions, so a
claim "for every interleaving and every clock" is a claim about every list of
actions the machine accepts.

A run is recorded as the list of its steps, oldest first, each with the state
before and after it.  History properties are then properties of a list:

* `Run.split` cuts a run at any of its steps;
* `Along C` says that every step satisfies `C` together with what preceded it,
  which is how an assumption on a run's steps is stated;
* `Run.induction` is the induction rule: what one step preserves, a whole run
  preserves;
* `Run.map` transports a run to another machine, dropping the steps the other
  machine does not see — the form of every refinement in this development.
-/

namespace Runs

universe u v w

/-- An element of a list with one more at its end is that one, or was there before. -/
theorem snoc_split {β : Type u} {xs before after : List β} {x y : β}
    (h : xs ++ [x] = before ++ y :: after) :
    after = [] ∧ xs = before ∧ x = y ∨ ∃ rest, after = rest ++ [x] ∧ xs = before ++ y :: rest := by
  rcases after.eq_nil_or_concat with rfl | ⟨rest, z, rfl⟩
  · obtain ⟨hxs, hlast⟩ := List.append_inj' h rfl
    exact Or.inl ⟨rfl, hxs, (List.cons.inj hlast).1⟩
  · rw [List.concat_eq_append, ← List.cons_append, ← List.append_assoc] at h
    obtain ⟨hxs, hlast⟩ := List.append_inj' h rfl
    obtain rfl := (List.cons.inj hlast).1
    exact Or.inr ⟨rest, List.concat_eq_append, hxs⟩

variable {σ : Type u} {α : Type v} {ο : Type w}

/-- A machine: an action is refused, or yields the next state and an output. -/
structure Machine (σ : Type u) (α : Type v) (ο : Type w) where
  step : σ → α → Option (σ × ο)

/-- One step of a run. -/
structure Entry (σ : Type u) (α : Type v) (ο : Type w) where
  pre : σ
  act : α
  out : ο
  post : σ

/-- The entry records a step of the machine. -/
def Machine.Does (M : Machine σ α ο) (x : Entry σ α ο) : Prop :=
  M.step x.pre x.act = some (x.post, x.out)

/-- The runs of a machine from `init`, with the state they end in. -/
inductive Run (M : Machine σ α ο) (init : σ) : List (Entry σ α ο) → σ → Prop
  | nil : Run M init [] init
  | snoc {tr : List (Entry σ α ο)} {x : Entry σ α ο} :
      Run M init tr x.pre → M.Does x → Run M init (tr ++ [x]) x.post

namespace Run

variable {M : Machine σ α ο} {init s : σ} {tr pre post : List (Entry σ α ο)}
variable {x : Entry σ α ο}

theorem snoc_iff :
    Run M init (tr ++ [x]) s ↔ Run M init tr x.pre ∧ M.Does x ∧ s = x.post := by
  constructor
  · intro h
    generalize htr : tr ++ [x] = tr' at h
    cases h with
    | nil => simp at htr
    | snoc hrun hdoes =>
        obtain ⟨rfl, hx⟩ := List.append_inj' htr rfl
        obtain rfl := (List.cons.inj hx).1
        exact ⟨hrun, hdoes, rfl⟩
  · rintro ⟨hrun, hdoes, rfl⟩
    exact hrun.snoc hdoes

theorem nil_iff : Run M init [] s ↔ s = init := by
  constructor
  · intro h
    generalize htr : ([] : List (Entry σ α ο)) = tr at h
    cases h with
    | nil => rfl
    | snoc _ _ => simp at htr
  · rintro rfl
    exact .nil

/-- **A run can be cut at any of its steps.** -/
theorem split (h : Run M init (pre ++ x :: post) s) :
    Run M init pre x.pre ∧ M.Does x := by
  induction post using List.reverseRecOn generalizing s with
  | nil => exact ⟨(snoc_iff.mp h).1, (snoc_iff.mp h).2.1⟩
  | append_singleton post y ih =>
      rw [← List.cons_append, ← List.append_assoc] at h
      exact ih (snoc_iff.mp h).1

/-- What follows a step is a run from where it ends. -/
theorem after (h : Run M init (pre ++ x :: post) s) : Run M x.post post s := by
  induction post using List.reverseRecOn generalizing s with
  | nil =>
      obtain ⟨-, -, rfl⟩ := snoc_iff.mp h
      exact .nil
  | append_singleton post y ih =>
      rw [← List.cons_append, ← List.append_assoc] at h
      obtain ⟨hbefore, hdoes, rfl⟩ := snoc_iff.mp h
      exact (ih hbefore).snoc hdoes

/-- A run goes on with a run from where it ends. -/
theorem append {t : σ} (h : Run M init pre s) (hmore : Run M s post t) :
    Run M init (pre ++ post) t := by
  induction hmore with
  | nil => simpa using h
  | snoc _ hdoes ih =>
      rw [← List.append_assoc]
      exact ih.snoc hdoes

theorem of_append (h : Run M init (pre ++ post) s) : ∃ t, Run M init pre t := by
  cases post with
  | nil => exact ⟨s, by simpa using h⟩
  | cons y rest => exact ⟨y.pre, h.split.1⟩

theorem does_of_mem (h : Run M init tr s) (hx : x ∈ tr) : M.Does x := by
  obtain ⟨pre, post, rfl⟩ := List.append_of_mem hx
  exact h.split.2

end Run

/-! ## Assumptions on the steps of a run -/

/-- Every step of the trace satisfies `C`, given the steps before it. -/
def Along (C : List (Entry σ α ο) → Entry σ α ο → Prop)
    (tr : List (Entry σ α ο)) : Prop :=
  ∀ pre x post, tr = pre ++ x :: post → C pre x

namespace Along

variable {C D : List (Entry σ α ο) → Entry σ α ο → Prop}
variable {tr pre post : List (Entry σ α ο)} {x : Entry σ α ο}

theorem nil : Along C [] := by
  intro pre x post h
  simp at h

theorem snoc_iff : Along C (tr ++ [x]) ↔ Along C tr ∧ C tr x := by
  constructor
  · intro h
    exact ⟨fun pre y post htr => h pre y (post ++ [x]) (by simp [htr]), h tr x [] rfl⟩
  · rintro ⟨htr, hx⟩ pre y post h
    rcases snoc_split h with ⟨rfl, rfl, rfl⟩ | ⟨rest, rfl, rfl⟩
    · exact hx
    · exact htr pre y rest rfl

theorem mono (hCD : ∀ pre x, C pre x → D pre x) (h : Along C tr) : Along D tr :=
  fun pre x post htr => hCD pre x (h pre x post htr)

theorem of_append (h : Along C (pre ++ post)) : Along C pre :=
  fun p x q hpre => h p x (q ++ post) (by simp [hpre])

/-- Up to and with the step `x`. -/
theorem through (h : Along C (pre ++ x :: post)) : Along C (pre ++ [x]) := by
  rw [List.append_cons] at h
  exact h.of_append

/-- A condition that does not look at the history is one on the members. -/
theorem of_forall_mem {C : Entry σ α ο → Prop} (h : ∀ x ∈ tr, C x) :
    Along (fun _ x => C x) tr := by
  rintro pre x post rfl
  exact h x (by simp)

theorem forall_mem {C : Entry σ α ο → Prop} (h : Along (fun _ x => C x) tr) :
    ∀ x ∈ tr, C x := by
  intro x hx
  obtain ⟨pre, post, rfl⟩ := List.append_of_mem hx
  exact h pre x post rfl

theorem and (hC : Along C tr) (hD : Along D tr) : Along (fun pre x => C pre x ∧ D pre x) tr :=
  fun pre x post htr => ⟨hC pre x post htr, hD pre x post htr⟩

/-- A relation between any two steps, as a condition on a step and those before it. -/
theorem of_pairwise {R : Entry σ α ο → Entry σ α ο → Prop} (h : tr.Pairwise R) :
    Along (fun pre x => ∀ y ∈ pre, R y x) tr := by
  rintro pre x post rfl y hy
  exact (List.pairwise_append.mp h).2.2 y hy x (by simp)

/-- A condition on the images of the steps. -/
theorem map {τ : Type u} {β : Type v} {π : Type w} (f : Entry σ α ο → Entry τ β π)
    {E : List (Entry τ β π) → Entry τ β π → Prop} (hCE : ∀ pre x, C pre x → E (pre.map f) (f x))
    (h : Along C tr) : Along E (tr.map f) := by
  intro pre' x' post' htr
  obtain ⟨pre, rest, rfl, rfl, hrest⟩ := List.map_eq_append_iff.mp htr
  obtain ⟨x, post, rfl, rfl, -⟩ := List.map_eq_cons_iff.mp hrest
  exact hCE pre x (h pre x post rfl)

/-- The histories of a trace are its prefixes. -/
theorem of_take (h : ∀ n (hn : n < tr.length), C (tr.take n) tr[n]) : Along C tr := by
  rintro pre x post rfl
  have hx := h pre.length (by simp)
  simpa using hx

end Along

/-- A step shows to another machine as the step `y` of that machine, or not at
all. -/
def Shows {τ : Type u} {β : Type v} {π : Type w} (N : Machine τ β π) (abs : σ → τ)
    (x : Entry σ α ο) : Option (Entry τ β π) → Prop
  | none => abs x.post = abs x.pre
  | some y => y.pre = abs x.pre ∧ y.post = abs x.post ∧ N.Does y

namespace Run

variable {M : Machine σ α ο} {init s : σ} {tr : List (Entry σ α ο)}
variable {C : List (Entry σ α ο) → Entry σ α ο → Prop}

/-- **The induction rule.**  What holds at the start, and is preserved by every
step whose history satisfies the assumption, holds of every run. -/
theorem induction {P : List (Entry σ α ο) → σ → Prop} (hrun : Run M init tr s)
    (hC : Along C tr) (hinit : P [] init)
    (hstep : ∀ tr x, Run M init tr x.pre → Along C tr → C tr x → M.Does x →
      P tr x.pre → P (tr ++ [x]) x.post) : P tr s := by
  induction hrun with
  | nil => exact hinit
  | snoc hrun hdoes ih =>
      obtain ⟨htr, hx⟩ := Along.snoc_iff.mp hC
      exact hstep _ _ hrun htr hx hdoes (ih htr)

/-- What holds after every step holds at the end. -/
theorem at_end {P : List (Entry σ α ο) → σ → Prop} (hrun : Run M init tr s)
    (h : Along (fun pre x => P (pre ++ [x]) x.post) tr) (hne : tr ≠ []) : P tr s := by
  cases hrun with
  | nil => exact absurd rfl hne
  | snoc hpre hdoes => exact h _ _ [] rfl

/-- The rule without an assumption on the steps. -/
theorem history {P : List (Entry σ α ο) → σ → Prop} (hrun : Run M init tr s) (hinit : P [] init)
    (hstep : ∀ tr x, Run M init tr x.pre → M.Does x → P tr x.pre → P (tr ++ [x]) x.post) :
    P tr s :=
  induction (C := fun _ _ => True) hrun (fun _ _ _ _ => trivial) hinit
    fun tr x hpre _ _ hdoes h => hstep tr x hpre hdoes h

/-- The rule for an invariant of the states alone. -/
theorem invariant {P : σ → Prop} (hrun : Run M init tr s) (hinit : P init)
    (hstep : ∀ x, M.Does x → P x.pre → P x.post) : P s :=
  history (P := fun _ s => P s) hrun hinit fun _ x _ hdoes h => hstep x hdoes h

/-- A run of one machine is a run of another: `f` says which step of the other
machine, if any, a step shows as. -/
theorem map {τ : Type u} {β : Type v} {π : Type w} {N : Machine τ β π} (abs : σ → τ)
    (f : Entry σ α ο → Option (Entry τ β π)) (hrun : Run M init tr s) (hC : Along C tr)
    (hf : ∀ tr x, Run M init tr x.pre → Along C tr → C tr x → M.Does x → Shows N abs x (f x)) :
    Run N (abs init) (tr.filterMap f) (abs s) := by
  apply induction (P := fun tr s => Run N (abs init) (tr.filterMap f) (abs s)) hrun hC .nil
  intro tr x hpre htr hx hdoes ih
  have hfx := hf tr x hpre htr hx hdoes
  rw [List.filterMap_append]
  cases hy : f x with
  | none =>
      rw [hy] at hfx
      simp only [Shows] at hfx
      simpa [hy, hfx] using ih
  | some y =>
      rw [hy] at hfx
      obtain ⟨hypre, hypost, hydoes⟩ := hfx
      rw [← hypre] at ih
      simpa [hy, ← hypost] using ih.snoc hydoes

end Run

/-- **A measure bounds a run**, if every step lessens it. -/
theorem Run.length_add_le {M : Machine σ α ο} {init s : σ} {tr : List (Entry σ α ο)} (μ : σ → ℕ)
    (hrun : Run M init tr s)
    (hless : ∀ pre x post, tr = pre ++ x :: post → Run M init pre x.pre → M.Does x →
      μ x.post < μ x.pre) :
    tr.length + μ s ≤ μ init := by
  have hC : Along (fun pre x => Run M init pre x.pre → M.Does x → μ x.post < μ x.pre) tr :=
    fun pre x post htr => hless pre x post htr
  refine hrun.induction (P := fun tr s => tr.length + μ s ≤ μ init) hC (by simp) ?_
  intro tr x hpre _ hx hdoes ih
  have := hx hpre hdoes
  rw [List.length_append, List.length_singleton]
  omega

/-! ## Executing a list of actions -/

/-- The steps the machine takes on a list of actions, up to the first refusal. -/
def Machine.trace (M : Machine σ α ο) : σ → List α → List (Entry σ α ο)
  | _, [] => []
  | s, a :: rest =>
      match M.step s a with
      | none => []
      | some (t, o) => ⟨s, a, o, t⟩ :: M.trace t rest

/-- The state those steps end in. -/
def Machine.final (M : Machine σ α ο) : σ → List α → σ
  | s, [] => s
  | s, a :: rest =>
      match M.step s a with
      | none => s
      | some (t, _) => M.final t rest

/-- The steps are on actions of the list. -/
theorem Machine.act_mem {M : Machine σ α ο} {s : σ} {acts : List α} {x : Entry σ α ο}
    (h : x ∈ M.trace s acts) : x.act ∈ acts := by
  induction acts generalizing s with
  | nil => cases h
  | cons a rest ih =>
      simp only [Machine.trace] at h
      split at h
      · cases h
      · rcases List.mem_cons.mp h with rfl | h
        · exact List.mem_cons_self
        · exact List.mem_cons_of_mem a (ih h)

theorem Run.cons {M : Machine σ α ο} {x : Entry σ α ο} {tr : List (Entry σ α ο)} {s : σ}
    (hdoes : M.Does x) (hrun : Run M x.post tr s) : Run M x.pre (x :: tr) s := by
  induction hrun with
  | nil => exact (Run.nil.snoc hdoes : Run M x.pre ([] ++ [x]) x.post)
  | snoc _ hy ih => exact Run.snoc ih hy

/-- Executing actions yields a run. -/
theorem Run.trace (M : Machine σ α ο) (s : σ) (acts : List α) :
    Run M s (M.trace s acts) (M.final s acts) := by
  induction acts generalizing s with
  | nil => exact .nil
  | cons a rest ih =>
      cases hstep : M.step s a with
      | none => simpa only [Machine.trace, Machine.final, hstep] using Run.nil
      | some r =>
          simp only [Machine.trace, Machine.final, hstep]
          exact Run.cons (x := ⟨s, a, r.2, r.1⟩) hstep (ih r.1)

end Runs

import Mathlib.Data.Int.Basic
import OpenBioUnlock.Machine.Run

/-!
# One-time codes

The abstract register behind a one-time code: at most one code is outstanding,
issuing a code replaces it, and redeeming it within its lifetime uses it up.
The register is generic in the codes; time is an integer clock read by the
operations, with no assumption on how it moves.

`redeem_spec` is the law a client of the register relies on: a redeemed code is
the one issued last, is young enough, and has not been redeemed since it was
issued.  Its two consequences are `redeems_between_issues`, the count between
two issues, and `redeemed_nodup`, which says the same about the codes
themselves as soon as no code is issued twice.

The history operations the law speaks with come first: `lastSome` is the last
value a step of the history yields, and `afterLast p` is the history since the
last step satisfying `p`.
-/

namespace Runs

universe u v w

/-! ## The last value, and the history since it -/

section History

variable {ε : Type u} {β : Type v}

/-- The value the latest element of the history with a value has. -/
def lastSome (f : ε → Option β) (tr : List ε) : Option β :=
  tr.foldl (fun acc x => (f x).or acc) none

/-- The elements after the last one satisfying `p`. -/
def afterLast (p : ε → Bool) (tr : List ε) : List ε :=
  tr.foldl (fun acc x => if p x then [] else acc ++ [x]) []

@[simp] theorem lastSome_nil (f : ε → Option β) : lastSome f [] = none := rfl

@[simp] theorem afterLast_nil (p : ε → Bool) : afterLast p [] = [] := rfl

@[simp] theorem lastSome_snoc (f : ε → Option β) (tr : List ε) (x : ε) :
    lastSome f (tr ++ [x]) = (f x).or (lastSome f tr) := by
  simp [lastSome]

/-- A later value comes before an earlier one. -/
theorem lastSome_append (f : ε → Option β) (pre post : List ε) :
    lastSome f (pre ++ post) = (lastSome f post).or (lastSome f pre) := by
  induction post using List.reverseRecOn with
  | nil => rw [List.append_nil, lastSome_nil, Option.none_or]
  | append_singleton post x ih =>
      rw [← List.append_assoc, lastSome_snoc, lastSome_snoc, ih, Option.or_assoc]

theorem lastSome_cons (f : ε → Option β) (x : ε) (tr : List ε) :
    lastSome f (x :: tr) = (lastSome f tr).or (f x) := by
  have hone : lastSome f [x] = f x := Option.or_none
  rw [← List.singleton_append, lastSome_append, hone]

/-- The latest value is that of an element. -/
theorem mem_of_lastSome {f : ε → Option β} {tr : List ε} {b : β} (h : lastSome f tr = some b) :
    ∃ x ∈ tr, f x = some b := by
  induction tr using List.reverseRecOn with
  | nil => cases h
  | append_singleton tr x ih =>
      rw [lastSome_snoc] at h
      cases hx : f x with
      | some b' =>
          rw [hx, Option.some_or] at h
          exact ⟨x, by simp, hx.trans h⟩
      | none =>
          rw [hx, Option.none_or] at h
          obtain ⟨y, hy, hfy⟩ := ih h
          exact ⟨y, by simp [hy], hfy⟩

@[simp] theorem afterLast_snoc (p : ε → Bool) (tr : List ε) (x : ε) :
    afterLast p (tr ++ [x]) = if p x then [] else afterLast p tr ++ [x] := by
  simp [afterLast]

/-- A stretch without `p` only adds to the history since `p`. -/
theorem afterLast_append {p : ε → Bool} (pre : List ε) {mid : List ε}
    (hmid : ∀ x ∈ mid, p x = false) : afterLast p (pre ++ mid) = afterLast p pre ++ mid := by
  induction mid using List.reverseRecOn with
  | nil => simp
  | append_singleton mid x ih =>
      have hx : p x = false := hmid x (by simp)
      rw [← List.append_assoc, afterLast_snoc, hx, ih fun y hy => hmid y (by simp [hy])]
      simp

theorem mem_of_mem_afterLast {p : ε → Bool} {tr : List ε} {x : ε} (h : x ∈ afterLast p tr) :
    x ∈ tr := by
  induction tr using List.reverseRecOn with
  | nil => exact h
  | append_singleton tr y ih =>
      rw [afterLast_snoc] at h
      split at h
      · cases h
      · rcases List.mem_append.mp h with h | h
        · exact List.mem_append_left _ (ih h)
        · exact List.mem_append_right _ h

/-- The history since `p` ends the history. -/
theorem afterLast_suffix (p : ε → Bool) (tr : List ε) : afterLast p tr <:+ tr := by
  induction tr using List.reverseRecOn with
  | nil => exact List.suffix_rfl
  | append_singleton tr x ih =>
      rw [afterLast_snoc]
      split
      · exact List.nil_suffix
      · obtain ⟨before, hbefore⟩ := ih
        exact ⟨before, by rw [← List.append_assoc, hbefore]⟩

theorem lastSome_eq_none {f : ε → Option β} {tr : List ε} :
    lastSome f tr = none ↔ ∀ x ∈ tr, f x = none := by
  induction tr using List.reverseRecOn with
  | nil => simp
  | append_singleton tr x ih => simp [ih, and_comm, or_imp, forall_and]

/-- If only one thing is ever observed, it is observed last when it is observed at all. -/
theorem lastSome_eq_some_of_only {f : ε → Option β} {tr : List ε} {b : β}
    (honly : ∀ x ∈ tr, ∀ b', f x = some b' → b' = b) :
    lastSome f tr = some b ↔ ∃ x ∈ tr, f x = some b := by
  constructor
  · exact mem_of_lastSome
  · rintro ⟨x, hx, hfx⟩
    cases hlast : lastSome f tr with
    | some b' =>
        obtain ⟨y, hy, hfy⟩ := mem_of_lastSome hlast
        rw [honly y hy b' hfy]
    | none =>
        rw [lastSome_eq_none.mp hlast x hx] at hfx
        cases hfx

variable {δ : Type w}

theorem lastSome_map (g : β → δ) (f : ε → Option β) (tr : List ε) :
    lastSome (fun x => (f x).map g) tr = (lastSome f tr).map g := by
  induction tr using List.reverseRecOn with
  | nil => rfl
  | append_singleton tr x ih =>
      rw [lastSome_snoc, lastSome_snoc, ih]
      cases f x <;> rfl

theorem lastSome_filterMap (g : δ → Option β) (f : ε → Option δ) (tr : List ε) :
    lastSome g (tr.filterMap f) = lastSome (fun x => (f x).bind g) tr := by
  induction tr using List.reverseRecOn with
  | nil => rfl
  | append_singleton tr x ih =>
      rw [List.filterMap_append, lastSome_snoc, ← ih]
      cases hx : f x with
      | none => simp [hx]
      | some y => simp [hx]

theorem afterLast_filterMap (p : δ → Bool) (f : ε → Option δ) (tr : List ε) :
    afterLast p (tr.filterMap f) =
      (afterLast (fun x => (f x).any p) tr).filterMap f := by
  induction tr using List.reverseRecOn with
  | nil => rfl
  | append_singleton tr x ih =>
      rw [List.filterMap_append, afterLast_snoc]
      cases hx : f x with
      | none => simp [hx, ih]
      | some y =>
          cases hp : p y with
          | true => simp [hx, hp]
          | false => simp [hx, hp, ih]

end History

/-! ## The register -/

/-- What can be done with the register. -/
inductive CodeOp (γ : Type u) where
  /-- a code replaces whatever was outstanding -/
  | issue (code : γ) (now : ℤ)
  /-- the outstanding code is presented and used up -/
  | redeem (code : γ) (now : ℤ)

variable {γ : Type u} [DecidableEq γ]

/-- The register: the outstanding code with its issue time.  Redeeming anything
else than a code at most `ttl` old is refused. -/
def codeRegister (γ : Type u) [DecidableEq γ] (ttl : ℤ) :
    Machine (Option (γ × ℤ)) (CodeOp γ) Unit where
  step
    | _, .issue code now => some (some (code, now), ())
    | some (code, issuedAt), .redeem presented now =>
        if presented = code ∧ now - issuedAt ≤ ttl then some (none, ()) else none
    | none, .redeem _ _ => none

abbrev CodeEntry (γ : Type u) := Entry (Option (γ × ℤ)) (CodeOp γ) Unit

/-- The code a step issues, with the time it does. -/
def issuedCode (x : CodeEntry γ) : Option (γ × ℤ) :=
  match x.act with
  | .issue code now => some (code, now)
  | .redeem _ _ => none

/-- The code a step redeems. -/
def redeemedCode (x : CodeEntry γ) : Option γ :=
  match x.act with
  | .issue _ _ => none
  | .redeem code _ => some code

variable {ttl : ℤ} {s : Option (γ × ℤ)} {tr pre post : List (CodeEntry γ)} {x : CodeEntry γ}

/-- What a redeeming step does. -/
theorem redeem_does (hdoes : (codeRegister γ ttl).Does x) {presented : γ} {now : ℤ}
    (hact : x.act = .redeem presented now) :
    ∃ issuedAt, x.pre = some (presented, issuedAt) ∧ now - issuedAt ≤ ttl ∧ x.post = none := by
  simp only [Machine.Does, codeRegister, hact] at hdoes
  cases hpre : x.pre with
  | none => simp [hpre] at hdoes
  | some p =>
      obtain ⟨code, issuedAt⟩ := p
      simp only [hpre] at hdoes
      split at hdoes
      · rename_i h
        obtain ⟨rfl, hage⟩ := h
        simp only [Option.some.injEq, Prod.mk.injEq] at hdoes
        exact ⟨issuedAt, rfl, hage, hdoes.1.symm⟩
      · cases hdoes

/-- What an issuing step does. -/
theorem issue_does (hdoes : (codeRegister γ ttl).Does x) {code : γ} {now : ℤ}
    (hact : x.act = .issue code now) : x.post = some (code, now) := by
  simp only [Machine.Does, codeRegister, hact, Option.some.injEq, Prod.mk.injEq] at hdoes
  exact hdoes.1.symm

/-- The outstanding code is the one issued last, and nothing was redeemed since. -/
theorem outstanding_spec (hrun : Run (codeRegister γ ttl) none tr s) :
    ∀ p, s = some p → lastSome issuedCode tr = some p ∧
      ∀ y ∈ afterLast (fun y => (issuedCode y).isSome) tr, redeemedCode y = none := by
  refine Run.induction (C := fun _ _ => True)
    (P := fun tr s => ∀ p, s = some p → lastSome issuedCode tr = some p ∧
      ∀ y ∈ afterLast (fun y => (issuedCode y).isSome) tr, redeemedCode y = none)
    hrun (fun _ _ _ _ => trivial) (by simp) ?_
  intro tr x _ _ _ hdoes _ p hp
  cases hact : x.act with
  | issue code now =>
      have hissued : issuedCode x = some (code, now) := by simp [issuedCode, hact]
      rw [issue_does hdoes hact] at hp
      obtain rfl := Option.some.inj hp
      simp [hissued]
  | redeem presented now =>
      obtain ⟨_, _, _, hpost⟩ := redeem_does hdoes hact
      rw [hpost] at hp
      cases hp

/-- **The law of the register.**  A redeemed code is the one issued last, it is
at most `ttl` old, and it has not been redeemed since it was issued. -/
theorem redeem_spec (hrun : Run (codeRegister γ ttl) none (pre ++ x :: post) s)
    {presented : γ} {now : ℤ} (hact : x.act = .redeem presented now) :
    ∃ issuedAt, lastSome issuedCode pre = some (presented, issuedAt) ∧
      now - issuedAt ≤ ttl ∧
      ∀ y ∈ afterLast (fun y => (issuedCode y).isSome) pre, redeemedCode y = none := by
  obtain ⟨hpre, hdoes⟩ := hrun.split
  obtain ⟨issuedAt, hstate, hage, -⟩ := redeem_does hdoes hact
  obtain ⟨hlast, hsince⟩ := outstanding_spec hpre _ hstate
  exact ⟨issuedAt, hlast, hage, hsince⟩

/-- Between two issues at most one code is redeemed. -/
theorem redeems_between_issues {mid : List (CodeEntry γ)}
    (hrun : Run (codeRegister γ ttl) none (pre ++ mid ++ post) s)
    (hmid : ∀ y ∈ mid, issuedCode y = none) : (mid.filterMap redeemedCode).length ≤ 1 := by
  induction mid using List.reverseRecOn generalizing post with
  | nil => simp
  | append_singleton mid y ih =>
      have hrun' : Run (codeRegister γ ttl) none ((pre ++ mid) ++ y :: post) s := by
        simpa using hrun
      rw [List.filterMap_append]
      cases hact : y.act with
      | issue code now =>
          have := hmid y (by simp)
          simp [issuedCode, hact] at this
      | redeem presented now =>
          -- a redemption closes the stretch: nothing before it in `mid` redeemed
          obtain ⟨_, _, _, hsince⟩ := redeem_spec hrun' hact
          rw [afterLast_append pre fun z hz => by rw [hmid z (by simp [hz])]; rfl] at hsince
          have hnone : mid.filterMap redeemedCode = [] :=
            List.filterMap_eq_nil_iff.mpr fun z hz => hsince z (by simp [hz])
          rw [hnone]
          exact List.length_filterMap_le _ [y]

/-- Redeemed codes were issued, the outstanding code is not among them, and no
code is redeemed twice — as long as no code is issued twice. -/
theorem redeemed_invariant (hrun : Run (codeRegister γ ttl) none tr s)
    (hissued : (tr.filterMap issuedCode).map Prod.fst |>.Nodup) :
    (∀ c ∈ tr.filterMap redeemedCode,
        c ∈ (tr.filterMap issuedCode).map Prod.fst) ∧
      (∀ p, s = some p → p.1 ∉ tr.filterMap redeemedCode ∧
        p.1 ∈ (tr.filterMap issuedCode).map Prod.fst) ∧
      (tr.filterMap redeemedCode).Nodup := by
  induction hrun with
  | nil => simp
  | @snoc tr x hrun hdoes ih =>
      rw [List.filterMap_append, List.map_append] at hissued
      obtain ⟨hsub, hout, hnodup⟩ := ih hissued.of_append_left
      cases hact : x.act with
      | issue code now =>
          have hi : issuedCode x = some (code, now) := by simp [issuedCode, hact]
          have hr : redeemedCode x = none := by simp [redeemedCode, hact]
          have hnew : code ∉ (tr.filterMap issuedCode).map Prod.fst := by
            intro hmem
            have := List.disjoint_of_nodup_append hissued hmem
            simp [hi] at this
          rw [issue_does hdoes hact]
          simp only [List.filterMap_append, List.filterMap_cons, List.filterMap_nil, hi, hr,
            List.append_nil, List.map_append, List.map_cons, List.map_nil, List.mem_append,
            List.mem_singleton, Option.some.injEq]
          refine ⟨fun c hc => Or.inl (hsub c hc), ?_, hnodup⟩
          rintro p rfl
          exact ⟨fun hc => hnew (hsub code hc), Or.inr rfl⟩
      | redeem presented now =>
          have hi : issuedCode x = none := by simp [issuedCode, hact]
          have hr : redeemedCode x = some presented := by simp [redeemedCode, hact]
          obtain ⟨issuedAt, hpre, -, hpost⟩ := redeem_does hdoes hact
          obtain ⟨hfresh, hknown⟩ := hout _ hpre
          rw [hpost]
          simp only [List.filterMap_append, List.filterMap_cons, List.filterMap_nil, hi, hr,
            List.append_nil, List.mem_append, List.mem_singleton]
          refine ⟨?_, by simp, ?_⟩
          · rintro c (hc | rfl)
            · exact hsub c hc
            · exact hknown
          · rw [← List.concat_eq_append]
            exact List.Nodup.concat hfresh hnodup

/-- If no code is issued twice, none is redeemed twice. -/
theorem redeemed_nodup (hrun : Run (codeRegister γ ttl) none tr s)
    (hissued : (tr.filterMap issuedCode).map Prod.fst |>.Nodup) :
    (tr.filterMap redeemedCode).Nodup :=
  (redeemed_invariant hrun hissued).2.2

end Runs

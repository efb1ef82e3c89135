import Mathlib.Data.Nat.Digits.Lemmas
import OpenBioUnlock.Desktop.Replay

/-!
# What the replay guard remembers a pair by

The token of a pair is its nonce with the decimal text of its timestamp behind it and
nothing in between, so pairs with different nonces can have one token.  They do not meet
in the guard while the clock reads ten digits: what gets past the freshness check then
has a text of ten digits, or is the one timestamp whose distance from the clock wraps,
and that one ends in ten digits no time of day of the period has (`number_ends`).

`no_false_replay` draws the conclusion for every sequence of calls.  `chosen_unbound` is
what a new token is good for: the guard is the only thing between a well-signed request
and its authorization.
-/

namespace OpenBioUnlock.Desktop

open Codec Runs

/-! ## Decimal text -/

/-- The number has ten digits. -/
def TenDigits (n : ℕ) : Prop := 1000000000 ≤ n ∧ n < 10000000000

theorem digitsOf_eq {base n : ℕ} (h : n ≠ 0) :
    digitsOf base n = (Nat.digits base n).reverse.map fun d => hexDigit (UInt8.ofNat d) :=
  if_neg h

/-- The digits read back. -/
theorem digitsOf_values {n : ℕ} (h : n ≠ 0) :
    ((digitsOf 10 n).map fun c => ((hexValue? c).getD 0).toNat) = (Nat.digits 10 n).reverse := by
  rw [digitsOf_eq h, List.map_map]
  conv_rhs => rw [← List.map_id (Nat.digits 10 n).reverse]
  refine List.map_congr_left fun d hd => ?_
  have hdigit : d < 10 := Nat.digits_lt_base (by decide) (List.mem_reverse.mp hd)
  have hback : (UInt8.ofNat d).toNat = d :=
    UInt8.toNat_ofNat_of_lt' (Nat.lt_trans hdigit (by decide))
  have hsmall : UInt8.ofNat d < 16 := by
    rw [UInt8.lt_iff_toNat_lt, hback]
    exact Nat.lt_trans hdigit (by decide)
  simp only [Function.comp_apply, hexValue?_hexDigit hsmall, Option.getD_some, hback, id]

theorem digitsOf_inj {m n : ℕ} (hm : m ≠ 0) (hn : n ≠ 0) (h : digitsOf 10 m = digitsOf 10 n) :
    m = n := by
  have hvalues := digitsOf_values hm
  rw [h, digitsOf_values hn] at hvalues
  exact (Nat.digits_inj_iff.mp (List.reverse_injective hvalues)).symm

theorem TenDigits.ne_zero {n : ℕ} (h : TenDigits n) : n ≠ 0 := by
  rintro rfl
  exact absurd h.1 (by decide)

theorem TenDigits.length_digits {n : ℕ} (h : TenDigits n) : (Nat.digits 10 n).length = 10 := by
  have hle := (Nat.digits_length_le_iff (b := 10) (k := 10) (by decide) n).mpr h.2
  have hlt := (Nat.lt_digits_length_iff (b := 10) (k := 9) (by decide) n).mpr h.1
  omega

theorem TenDigits.length {n : ℕ} (h : TenDigits n) : (digitsOf 10 n).length = 10 := by
  rw [digitsOf_eq h.ne_zero, List.length_map, List.length_reverse, h.length_digits]

/-- A number of more than ten digits ends in the digits of its remainder. -/
theorem digitsOf_add {m n : ℕ} (hm : m ≠ 0) (hn : TenDigits n) :
    digitsOf 10 (n + 10000000000 * m) = digitsOf 10 m ++ digitsOf 10 n := by
  have hsum : n + 10000000000 * m ≠ 0 := by
    have := hn.ne_zero
    omega
  have happend := Nat.digits_append_digits (b := 10) (m := m) (n := n) (by decide)
  rw [hn.length_digits] at happend
  rw [digitsOf_eq hsum, digitsOf_eq hm, digitsOf_eq hn.ne_zero, ← List.map_append,
    ← List.reverse_append, happend]
  norm_num

/-! ## Tokens -/

/-- The clock reads a time between September 2001 and January 2065. -/
def InPeriod (now : EpochSecs) : Prop :=
  1000000100 ≤ now.secs.toInt ∧ now.secs.toInt ≤ 3000000000

instance (now : EpochSecs) : Decidable (InPeriod now) := by
  unfold InPeriod
  infer_instance

/-- A timestamp of the period is written with ten digits. -/
theorem number_near {timestamp : Int64} {now : EpochSecs} (hnear : |ahead timestamp now| ≤ 30)
    (hnow : InPeriod now) :
    ∃ n : ℕ, timestamp.toInt = n ∧ TenDigits n ∧ n ≤ 3000000030 ∧
      number timestamp = digitsOf 10 n := by
  obtain ⟨hlow, hhigh⟩ := hnow
  rw [ahead, abs_le] at hnear
  refine ⟨timestamp.toInt.natAbs, by omega, ⟨by omega, by omega⟩, by omega, ?_⟩
  have hnonneg : ¬ timestamp < 0 := by
    rw [Int64.lt_iff_toInt_lt, Int64.toInt_zero]
    omega
  rw [number, if_neg hnonneg]

/-- **What passes for fresh ends in ten digits**: those of a time of the period, alone, or
those of a later number. -/
theorem number_ends {timestamp : Int64} {now : EpochSecs}
    (hfresh : isFreshTimestamp timestamp now.secs = true) (hnow : InPeriod now) :
    ∃ stem, ∃ n : ℕ, number timestamp = stem ++ digitsOf 10 n ∧ TenDigits n ∧
      (stem = [] ∧ timestamp.toInt = n ∨ 3000000030 < n) := by
  have hmin : Int64.minValue.toInt = -9223372036854775808 := rfl
  obtain ⟨hlow, hhigh⟩ := id hnow
  have hbound := timestamp.le_toInt
  rcases (isFreshTimestamp_iff_ahead timestamp now).mp hfresh with hnear | hleast | hwrapped
  · obtain ⟨n, hn, hten, -, hnumber⟩ := number_near hnear hnow
    exact ⟨[], n, hnumber, hten, Or.inl ⟨rfl, hn⟩⟩
  · -- the text is a sign and nineteen digits
    rw [ahead, hmin] at hleast
    have hneg : timestamp < 0 := by
      rw [Int64.lt_iff_toInt_lt, Int64.toInt_zero]
      omega
    have hten : TenDigits (6854775808 - now.secs.toInt.natAbs) := ⟨by omega, by omega⟩
    have hsplit : timestamp.toInt.natAbs =
        (6854775808 - now.secs.toInt.natAbs) + 10000000000 * 922337203 := by omega
    refine ⟨45 :: digitsOf 10 922337203, _, ?_, hten, Or.inr (by omega)⟩
    rw [number, if_pos hneg, hsplit, digitsOf_add (by decide) hten, List.cons_append]
  · rw [ahead, UInt64.size] at hwrapped
    omega

/-- **Tokens do not meet**: a pair near the clock has its token for itself. -/
theorem replayToken_inj {nonce nonce' : QByteArray} {timestamp timestamp' : Int64}
    {now now' : EpochSecs} (hfresh : isFreshTimestamp timestamp now.secs = true)
    (hnow : InPeriod now) (hnear : |ahead timestamp' now'| ≤ 30) (hnow' : InPeriod now')
    (h : replayToken nonce timestamp = replayToken nonce' timestamp') :
    nonce = nonce' ∧ timestamp = timestamp' := by
  obtain ⟨stem, n, hnumber, hten, hend⟩ := number_ends hfresh hnow
  obtain ⟨n', hn', hten', hle, hnumber'⟩ := number_near hnear hnow'
  rw [replayToken, replayToken, hnumber, hnumber', ← List.append_assoc] at h
  obtain ⟨hstem, hdigits⟩ := List.append_inj' h (by rw [hten.length, hten'.length])
  have hsame := digitsOf_inj hten.ne_zero hten'.ne_zero hdigits
  rcases hend with ⟨rfl, htime⟩ | hlate
  · rw [List.append_nil] at hstem
    refine ⟨hstem, Int64.toInt_inj.mp ?_⟩
    rw [htime, hn', hsame]
  · omega

/-! ## The guard -/

/-- Every token remembered is that of a pair accepted before, which was fresh then. -/
def Remembers (tr : List GuardEntry) (replayGuard : ReplayGuard) : Prop :=
  ∀ token ∈ replayGuard.seen, ∃ x ∈ tr, x.out = true ∧
    isFreshTimestamp x.act.timestamp x.act.first.secs = true ∧
    token = replayToken x.act.nonce x.act.timestamp

variable {tr : List GuardEntry} {replayGuard : ReplayGuard}

/-- What a step of the guard leaves and answers. -/
theorem call_eq {x : GuardEntry} (hdoes : guardMachine.Does x) :
    x.post = (x.pre.accept x.act.nonce x.act.timestamp x.act.first x.act.second).1 ∧
      x.out = (x.pre.accept x.act.nonce x.act.timestamp x.act.first x.act.second).2 := by
  have hcall := Option.some.inj hdoes
  rw [hcall]
  exact ⟨rfl, rfl⟩

theorem remembers_run (hrun : Run guardMachine .initial tr replayGuard) :
    Remembers tr replayGuard := by
  apply hrun.history (by simp [Remembers, ReplayGuard.initial])
  rintro tr x - hdoes hbefore token htoken
  obtain ⟨hpost, hout⟩ := call_eq hdoes
  have hkept : token ∈ x.pre.seen → ∃ y ∈ tr ++ [x], y.out = true ∧
      isFreshTimestamp y.act.timestamp y.act.first.secs = true ∧
      token = replayToken y.act.nonce y.act.timestamp := by
    intro hmem
    obtain ⟨y, hy, hrest⟩ := hbefore token hmem
    exact ⟨y, List.mem_append_left _ hy, hrest⟩
  rw [hpost] at htoken
  cases haccept : x.out with
  | false =>
      rw [haccept] at hout
      rw [ReplayGuard.accept_of_false hout.symm] at htoken
      exact hkept htoken
  | true =>
      rw [haccept] at hout
      rw [ReplayGuard.accept_of_true hout.symm] at htoken
      rcases List.mem_cons.mp htoken with rfl | hmem
      · obtain ⟨⟨-, hfresh⟩, -⟩ := ReplayGuard.accept_eq_true.mp hout.symm
        exact ⟨x, List.mem_append_right _ List.mem_cons_self, haccept, hfresh, rfl⟩
      · apply hkept
        unfold ReplayGuard.cleanup at hmem
        split at hmem
        · cases hmem
        · exact hmem

/-- A fresh pair whose token was never presented is accepted. -/
theorem accept_of_new (hrun : Run guardMachine .initial tr replayGuard) {c : GuardCall}
    (hfresh : c.Fresh)
    (hnew : ∀ x ∈ tr, replayToken x.act.nonce x.act.timestamp ≠ replayToken c.nonce c.timestamp) :
    (replayGuard.accept c.nonce c.timestamp c.first c.second).2 = true := by
  by_contra hrefused
  rw [Bool.not_eq_true] at hrefused
  rcases guardRefuses_iff.mpr hrefused with hempty | hstale | ⟨-, hseen⟩
  · exact hfresh.1 hempty
  · rw [hfresh.2] at hstale
    cases hstale
  · obtain ⟨x, hx, -, -, htoken⟩ := remembers_run hrun _ hseen
    exact hnew x hx htoken.symm

/-- **A device that signs what it likes** is authorized for it: a fresh verify request of a
new token, over no challenge issued to the device, breaks the law of challenges. -/
theorem chosen_unbound {lib : Libraries} {pcId : QByteArray} {keyPair : X25519KeyPair}
    {pre post : List ServerEntry} {x : ServerEntry} {s : Server}
    (hrun : Run (serverMachine lib) (Server.initial pcId keyPair) (pre ++ x :: post) s)
    {c : GuardCall} (hcall : guardCall lib x = some c) (hfresh : c.Fresh)
    (hnew : ∀ y ∈ pre, ∀ d ∈ guardCall lib y,
      replayToken d.nonce d.timestamp ≠ replayToken c.nonce c.timestamp)
    (hchosen : ¬ SignsIssued lib pre x) : ¬ ChallengeBound lib (pre ++ x :: post) := by
  obtain ⟨hpre, hdoes⟩ := hrun.split
  obtain ⟨id, v, env, key, hasked, hkey, rfl, -⟩ := guardCall_eq_some hdoes hcall
  have haccept := accept_of_new (run_guard hpre) hfresh (by
    intro g hg
    obtain ⟨y, hy, hentry⟩ := List.mem_filterMap.mp hg
    obtain ⟨d, hd, rfl⟩ := Option.map_eq_some_iff.mp hentry
    exact hnew y hy d hd)
  intro hlaw
  refine hchosen fun id' v' env' key' hasked' hkey' hsigned => ?_
  obtain ⟨rfl, rfl, rfl⟩ : id = id' ∧ v = v' ∧ env = env' := by
    simpa using hasked.symm.trans hasked'
  have hverdict := verdict_eq_true.mpr ⟨key', hkey', haccept, hsigned⟩
  obtain ⟨y, hy, hissued⟩ := hlaw pre x post id v rfl
    ((answeredVerify_iff hdoes).mpr ⟨env, hasked, hverdict⟩)
  exact ⟨y, hy, v.nonce, v.timestamp, hissued, rfl⟩

/-- The readings of the calls are of the period. -/
def ClockInPeriod (tr : List GuardEntry) : Prop :=
  ∀ x ∈ tr, InPeriod x.act.first ∧ InPeriod x.act.second

instance (tr : List GuardEntry) : Decidable (ClockInPeriod tr) := by
  unfold ClockInPeriod
  infer_instance

/-- **No false replay verdicts**: a pair near the clock is rejected only if it was accepted
before.  The clock may even run backwards within its period. -/
theorem no_false_replay (hrun : Run guardMachine .initial tr replayGuard)
    (hclock : ClockInPeriod tr) :
    Along (fun pre x => x.act.nonce ≠ [] → |ahead x.act.timestamp x.act.first| ≤ 30 →
      x.out = false → (x.act.nonce, x.act.timestamp) ∈ pre.filterMap acceptedCall) tr := by
  rintro pre x post rfl hnonce hnear hrejected
  obtain ⟨hpre, hdoes⟩ := hrun.split
  -- the call is fresh, so it was refused for its token
  have hrefused := (call_eq hdoes).2.symm.trans hrejected
  rcases guardRefuses_iff.mpr hrefused with hempty | hstale | ⟨-, hseen⟩
  · exact absurd hempty hnonce
  · have hfresh := (isFreshTimestamp_iff_ahead x.act.timestamp x.act.first).mpr (Or.inl hnear)
    rw [hstale] at hfresh
    cases hfresh
  · obtain ⟨y, hy, hout, hfresh, htoken⟩ := remembers_run hpre _ hseen
    obtain ⟨hsame, htime⟩ := replayToken_inj hfresh (hclock y (by simp [hy])).1 hnear
      (hclock x (by simp)).1 htoken.symm
    refine List.mem_filterMap.mpr ⟨y, hy, ?_⟩
    rw [acceptedCall, hout, if_pos rfl, hsame, htime]

/-- A call in January 2027. -/
def periodCall : GuardCall :=
  ⟨[0xaa], 1800000000, ⟨1800000000, by decide⟩, ⟨1800000000, by decide⟩⟩

/-- Made twice, it is rejected the second time, and was accepted before. -/
theorem no_false_replay_sample :
    ∃ x y, guardMachine.trace .initial [periodCall, periodCall] = [x, y] ∧ y.out = false ∧
      (y.act.nonce, y.act.timestamp) ∈ [x].filterMap acceptedCall := by
  have hrun := Run.trace guardMachine .initial [periodCall, periodCall]
  refine ⟨_, _, rfl, by decide +kernel, ?_⟩
  exact no_false_replay hrun (by decide +kernel) [_] _ [] rfl (by decide +kernel)
    (by decide +kernel) (by decide +kernel)

end OpenBioUnlock.Desktop

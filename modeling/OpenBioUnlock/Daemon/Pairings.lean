import OpenBioUnlock.Daemon.Authorization

/-!
# Pairings that are lost

A `Pair` reads the stored keys, adds its own and writes the list back.  The vault
is not locked in between, so what another `Pair` has stored by then is not in the
list that is written.

`no_lost_pairing_iff` is the exact condition: no step writes a list without a key
that the vault holds at that moment.
-/

namespace OpenBioUnlock.Daemon

open Codec Runs

/-- The keys the vault holds. -/
def DaemonState.storedKeys (s : DaemonState) : List (ByteArr 32) :=
  (loadPublicKeys s.vault).toOption.getD []

/-- The key of a `Pair` that a step answers with `accepted: true`. -/
def pairedKey (x : DaemonEntry) : Option (ByteArr 32) :=
  match x.pre.handlers x.act.1, x.act.2, x.out with
  | some ⟨_, .pairStore key _ _⟩, .setPassword _, some (.paired true) => some key
  | _, _, _ => none

/-- The keys a `Pair` has read and not yet written back. -/
def Phase.held : Phase → Option (List (ByteArr 32))
  | .pairStore _ _ keys => some keys
  | _ => none

/-- **No pairing is lost**: the store lists the keys that were there and the keys of
the accepted `Pair` requests, each once. -/
def KeepsPairings (stored : List (ByteArr 32)) (tr : List DaemonEntry) (s : DaemonState) : Prop :=
  ∃ keys, loadPublicKeys s.vault = .ok keys ∧ keys.Nodup ∧
    ∀ key, key ∈ keys ↔ key ∈ stored ∨ key ∈ tr.filterMap pairedKey

/-- The list of keys a step writes to the vault. -/
def writtenKeys (x : DaemonEntry) : Option (List (ByteArr 32)) :=
  match x.pre.handlers x.act.1, x.act.2 with
  | some ⟨_, .pairStore key _ keys⟩, .setPassword true => some (withKey keys key)
  | _, _ => none

/-- A step that writes the vault writes every key the vault holds at that moment:
it was read before, or is the one being paired. -/
def WritesCurrent (x : DaemonEntry) : Prop :=
  ∀ keys ∈ writtenKeys x, ∀ current ∈ x.pre.storedKeys, current ∈ keys

instance : DecidablePred WritesCurrent := fun x =>
  inferInstanceAs (Decidable (∀ keys ∈ writtenKeys x, ∀ current ∈ x.pre.storedKeys, current ∈ keys))

variable {dalek : Dalek} {x : DaemonEntry} {tr : List DaemonEntry} {s : DaemonState}
variable {vault : Option ByteString} {stored : List (ByteArr 32)}

theorem storedKeys_of_load {keys : List (ByteArr 32)} (h : loadPublicKeys s.vault = .ok keys) :
    s.storedKeys = keys := by
  rw [DaemonState.storedKeys, h]
  rfl

/-- **What a step does to the vault.**  It leaves it alone, and what its task holds
then was read from the vault; or it answers a `Pair` and writes what was held. -/
theorem vault_step (hdoes : (daemonMachine dalek).Does x) :
    (pairedKey x = none ∧ x.post.vault = x.pre.vault ∧ WritesCurrent x ∧
        ∀ keys, x.post.phaseAt Phase.held x.act.1 = some keys →
          keys = [] ∨ loadPublicKeys x.pre.vault = .ok keys) ∨
      ∃ key keys, pairedKey x = some key ∧ x.pre.phaseAt Phase.held x.act.1 = some keys ∧
        x.post.vault = some (encodeKeys (withKey keys key)) ∧
        x.post.phaseAt Phase.held x.act.1 = none ∧
        (WritesCurrent x ↔ ∀ current ∈ x.pre.storedKeys, current ∈ withKey keys key) := by
  have hcase := does_case hdoes
  obtain ⟨pre, ⟨conn, act⟩, out, post⟩ := x
  simp only at hcase
  cases hcase with
  | @store store key pairingCode keys hconn =>
      refine Or.inr ⟨key, keys, by simp only [pairedKey, hconn], ?_, rfl, by simp [Phase.held], ?_⟩
      · rw [DaemonState.phaseAt_some hconn]
        rfl
      · simp [WritesCurrent, writtenKeys, hconn]
  | quiet hconn hlocal =>
      refine Or.inl ⟨?_, rfl, ?_, ?_⟩
      · cases hlocal <;> simp [pairedKey, hconn]
      · cases hlocal <;> simp [WritesCurrent, writtenKeys, hconn]
      · intro keys hkeys
        cases hlocal with
        | @pairRead key pairingCode ok read hread =>
            simp only [DaemonState.phaseAt_goto, Phase.held, Option.some.injEq] at hkeys
            subst hkeys
            cases ok with
            | true => exact Or.inr hread
            | false => exact Or.inl (Except.ok.inj hread).symm
        | _ => simp [Phase.held] at hkeys
  | close hconn =>
      exact Or.inl ⟨by simp [pairedKey], rfl, by simp [WritesCurrent, writtenKeys, hconn],
        by simp [DaemonState.phaseAt]⟩
  | check hconn hnotified hq =>
      refine Or.inl ⟨by simp [pairedKey], rfl, by simp [WritesCurrent, writtenKeys, hconn], ?_⟩
      rw [DaemonState.phaseAt_goto, hq]
      split <;> simp [Phase.held]
  | accept hconn | authorize hconn | insert hconn | listen hconn | timeout hconn | remove hconn
  | approve hconn =>
      exact Or.inl ⟨by simp [pairedKey], rfl, by simp [WritesCurrent, writtenKeys, hconn], by simp [Phase.held]⟩

/-- **Nothing is stored that was not paired**: the vault and the tasks hold lists
without repetitions, of keys that were there or were paired. -/
structure Provenance (stored : List (ByteArr 32)) (tr : List DaemonEntry) (s : DaemonState) :
    Prop where
  vault : ∃ keys, loadPublicKeys s.vault = .ok keys ∧ keys.Nodup ∧
    ∀ key ∈ keys, key ∈ stored ∨ key ∈ tr.filterMap pairedKey
  held : ∀ c keys, s.phaseAt Phase.held c = some keys → keys.Nodup ∧
    ∀ key ∈ keys, key ∈ stored ∨ key ∈ tr.filterMap pairedKey

theorem provenance_run (hvault : loadPublicKeys vault = .ok stored) (hnodup : stored.Nodup)
    (hrun : Run (daemonMachine dalek) (DaemonState.initial vault) tr s) :
    Provenance stored tr s := by
  refine Run.history (P := Provenance stored) hrun ?_ ?_
  · exact ⟨⟨stored, hvault, hnodup, fun key hkey => Or.inl hkey⟩,
      by simp [DaemonState.phaseAt, DaemonState.initial]⟩
  · intro tr x hpre hdoes h
    have hframe : ∀ c, c ≠ x.act.1 →
        x.post.phaseAt Phase.held c = x.pre.phaseAt Phase.held c := fun c hc => frame_step hdoes _ hc
    have hgrow : ∀ key, key ∈ stored ∨ key ∈ tr.filterMap pairedKey →
        key ∈ stored ∨ key ∈ (tr ++ [x]).filterMap pairedKey := by
      intro key hkey
      rw [List.filterMap_append]
      exact hkey.imp_right (List.mem_append_left _)
    obtain ⟨current, hcurrent, hdistinct, hfrom⟩ := h.vault
    rcases vault_step hdoes with ⟨-, hsame, -, hread⟩ |
      ⟨key, keys, hpaired, hheld, hwritten, hnone, -⟩
    · refine ⟨⟨current, by rw [hsame, hcurrent], hdistinct, fun k hk => hgrow k (hfrom k hk)⟩, ?_⟩
      intro c keys hkeys
      by_cases hc : c = x.act.1
      · subst hc
        rcases hread keys hkeys with rfl | hload
        · exact ⟨List.nodup_nil, by simp⟩
        · rw [hcurrent] at hload
          cases hload
          exact ⟨hdistinct, fun k hk => hgrow k (hfrom k hk)⟩
      · rw [hframe c hc] at hkeys
        exact ⟨(h.held c keys hkeys).1, fun k hk => hgrow k ((h.held c keys hkeys).2 k hk)⟩
    · obtain ⟨hkeys, hkeysfrom⟩ := h.held _ _ hheld
      refine ⟨⟨withKey keys key, by rw [hwritten, load_encodeKeys], withKey_nodup hkeys key, ?_⟩, ?_⟩
      · intro k hk
        rcases mem_withKey.mp hk with hk | rfl
        · exact hgrow k (hkeysfrom k hk)
        · exact Or.inr (by simp [List.filterMap_append, hpaired])
      · intro c held hheld'
        have hc : c ≠ x.act.1 := by
          rintro rfl
          rw [hnone] at hheld'
          cases hheld'
        rw [hframe c hc] at hheld'
        exact ⟨(h.held c held hheld').1, fun k hk => hgrow k ((h.held c held hheld').2 k hk)⟩

/-- A write without a current key loses it. -/
theorem writesCurrent_of_keeps (h : Provenance stored tr x.pre)
    (hdoes : (daemonMachine dalek).Does x) (hkeeps : KeepsPairings stored (tr ++ [x]) x.post) :
    WritesCurrent x := by
  rcases vault_step hdoes with ⟨-, -, hcurrent, -⟩ | ⟨key, keys, -, -, hwritten, -, hiff⟩
  · exact hcurrent
  · rw [hiff]
    intro current hmem
    obtain ⟨before, hbefore, -, hfrom⟩ := h.vault
    rw [storedKeys_of_load hbefore] at hmem
    obtain ⟨after, hafter, -, hall⟩ := hkeeps
    rw [hwritten, load_encodeKeys] at hafter
    cases hafter
    rw [hall, List.filterMap_append]
    exact (hfrom current hmem).imp_right (List.mem_append_left _)

/-- A write of every current key keeps the pairings. -/
theorem keeps_step (h : Provenance stored tr x.pre) (hdoes : (daemonMachine dalek).Does x)
    (hcurrent : WritesCurrent x) (hkeeps : KeepsPairings stored tr x.pre) :
    KeepsPairings stored (tr ++ [x]) x.post := by
  obtain ⟨before, hbefore, hdistinct, hall⟩ := hkeeps
  rcases vault_step hdoes with ⟨hnone, hsame, -, -⟩ | ⟨key, keys, hpaired, hheld, hwritten, -, hiff⟩
  · refine ⟨before, by rw [hsame, hbefore], hdistinct, ?_⟩
    simpa [List.filterMap_append, hnone] using hall
  · obtain ⟨hkeys, hkeysfrom⟩ := h.held _ _ hheld
    refine ⟨withKey keys key, by rw [hwritten, load_encodeKeys], withKey_nodup hkeys key, ?_⟩
    have hsnoc : (tr ++ [x]).filterMap pairedKey = tr.filterMap pairedKey ++ [key] := by
      simp [List.filterMap_append, hpaired]
    intro k
    rw [hsnoc, List.mem_append, List.mem_singleton, ← or_assoc]
    constructor
    · exact fun hk => (mem_withKey.mp hk).imp_left (hkeysfrom k)
    · rintro (hk | rfl)
      · apply hiff.mp hcurrent k
        rw [storedKeys_of_load hbefore]
        exact (hall k).mpr hk
      · exact mem_withKey.mpr (Or.inr rfl)

/-- **No pairing is lost in a run exactly if its writes are current.** -/
theorem no_lost_pairing_iff (hvault : loadPublicKeys vault = .ok stored) (hnodup : stored.Nodup)
    (hrun : Run (daemonMachine dalek) (DaemonState.initial vault) tr s) :
    Along (fun pre x => KeepsPairings stored (pre ++ [x]) x.post) tr ↔
      Along (fun _ x => WritesCurrent x) tr := by
  constructor
  · rintro h pre x post rfl
    obtain ⟨hpre, hdoes⟩ := hrun.split
    exact writesCurrent_of_keeps (provenance_run hvault hnodup hpre) hdoes (h pre x post rfl)
  · rintro h pre x post rfl
    obtain ⟨hpre, hdoes⟩ := hrun.split
    have hkeeps : KeepsPairings stored pre x.pre := by
      refine Run.induction (P := KeepsPairings stored) hpre h.of_append ?_ ?_
      · exact ⟨stored, hvault, hnodup, by simp⟩
      · intro tr y hy _ hcurrent hydoes ih
        exact keeps_step (provenance_run hvault hnodup hy) hydoes hcurrent ih
    exact keeps_step (provenance_run hvault hnodup hpre) hdoes (h pre x post rfl) hkeeps

/-! ## Two pairings -/

def firstKey : ByteArr 32 := .replicate 32 1

def secondKey : ByteArr 32 := .replicate 32 2

/-- The steps of a `Pair` on `conn` until the keys are read, and the one after. -/
def readActs (conn : Conn) (key : ByteArr 32) : List (Conn × Act) :=
  [(conn, .accept true),
    (conn, .receive (.ok (.pair (ascii "phone") (hexEncode key.1) (ascii "12345678"))) sampleDraws),
    (conn, .getPassword true)]

/-- One pairing after the other. -/
def pairedTrace : List DaemonEntry :=
  daemonTrace (readActs 1 firstKey ++ [(1, .setPassword true)] ++ readActs 2 secondKey ++
    [(2, .setPassword true)])

theorem no_lost_pairing_sample :
    pairedTrace.filterMap pairedKey = [firstKey, secondKey] ∧
      Along (fun pre x => KeepsPairings [sampleKey] (pre ++ [x]) x.post) pairedTrace := by
  have hcurrent : ∀ i : Fin pairedTrace.length, WritesCurrent pairedTrace[i] := by
    decide +kernel
  refine ⟨by decide +kernel, ?_⟩
  exact (no_lost_pairing_iff (load_encodeKeys _) (List.nodup_singleton _) (Run.trace _ _ _)).mpr
    (Along.of_take fun i hi => hcurrent ⟨i, hi⟩)

/-- Both read before either writes. -/
def racedActs : List (Conn × Act) :=
  readActs 1 firstKey ++ readActs 2 secondKey ++ [(1, .setPassword true), (2, .setPassword true)]

theorem no_lost_pairing_fails :
    (daemonTrace racedActs).filterMap pairedKey = [firstKey, secondKey] ∧
      loadPublicKeys ((daemonMachine sampleDalek).final (DaemonState.initial sampleVault)
        racedActs).vault = .ok [sampleKey, secondKey] ∧
      ¬ ∀ vault stored tr s, loadPublicKeys vault = .ok stored → stored.Nodup →
        Run (daemonMachine sampleDalek) (DaemonState.initial vault) tr s →
          Along (fun pre x => KeepsPairings stored (pre ++ [x]) x.post) tr := by
  have hpaired : (daemonTrace racedActs).filterMap pairedKey = [firstKey, secondKey] := by
    decide +kernel
  have hvault : ((daemonMachine sampleDalek).final (DaemonState.initial sampleVault)
      racedActs).vault = some (encodeKeys [sampleKey, secondKey]) := by decide +kernel
  have hload : loadPublicKeys ((daemonMachine sampleDalek).final (DaemonState.initial sampleVault)
      racedActs).vault = .ok [sampleKey, secondKey] := by rw [hvault, load_encodeKeys]
  refine ⟨hpaired, hload, fun h => ?_⟩
  have hrun : Run (daemonMachine sampleDalek) (DaemonState.initial sampleVault)
    (daemonTrace racedActs) _ := Run.trace _ _ _
  have hne : daemonTrace racedActs ≠ [] := by
    intro hnil
    rw [hnil] at hpaired
    cases hpaired
  obtain ⟨keys, hkeys, -, hall⟩ := hrun.at_end (P := KeepsPairings [sampleKey])
    (h _ _ _ _ (load_encodeKeys _) (List.nodup_singleton _) hrun) hne
  rw [hload] at hkeys
  cases hkeys
  have hfirst := (hall firstKey).mpr (Or.inr (by rw [hpaired]; exact List.mem_cons_self))
  exact absurd hfirst (by decide)

end OpenBioUnlock.Daemon

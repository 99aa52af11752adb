import Micronet.LinkWatch

/-!
# How often the link is re-selected

A tick without carrier selects again once the first loss is `linkRetrySecs` old.  A
successful apply clears the timer, a failed one leaves it: after a failure every tick
is due (`failing_reselects_repeat`), and the re-selects are spaced as long as none has
failed since the timer was last cleared.
-/
namespace Micronet
open Interaction Prog

variable {ω : Type} {X : Env ExtSig ω}

/-- An outside whose `Instant::now` reads a clock that does not go back. -/
structure Clock (X : Env ExtSig ω) (clock : ω → Instant) : Prop where
  /-- A reading is the clock's time, which no call sets back. -/
  now : ∀ w n w', X .now w n w' → n = clock w'
  mono : ∀ c w r w', X c w r w' → clock w ≤ clock w'

/-- When the step selected again because of the carrier. -/
def Record.reselectTime (r : Record ω) : Option Instant :=
  if r.kind = .tick ∧ r.applied ≠ [] then r.time else none

/-- Every re-select is at least `linkRetrySecs` after each one before it. -/
def Spaced (h : List (Record ω)) : Prop :=
  Each (fun p r => ∀ n ∈ r.reselectTime, ∀ x ∈ p, ∀ n₀ ∈ Record.reselectTime x,
    n₀ + Duration.fromSecs r.before.1.config.linkRetrySecs ≤ n) h

/-- At every re-select, none has failed since the timer was last cleared. -/
def Rearmed (h : List (Record ω)) : Prop :=
  Each (fun p r => r.reselectTime ≠ none →
    ∀ x ∈ sinceLast Record.relinks p, Record.reselectTime x = none) h

instance (h : List (Record ω)) : Decidable (Spaced h) := decidableEach h

instance (h : List (Record ω)) : Decidable (Rearmed h) := decidableEach h

/-! ## Times of a run -/

section Clock
variable {clock : ω → Instant} (hclock : Clock X clock)
include hclock

/-- What a step saw of the time is between its ends. -/
theorem time_step {k : StepKind} {m m' : Mem} {w w' : ω} {l : Log ExtSig ω}
    (hstep : Stepped X m w k l m' w') : clock w ≤ clock w' ∧
      ∀ n, Record.time ⟨k, (m, w), l, (m', w')⟩ = some n → clock w ≤ n ∧ n ≤ clock w' := by
  have mono {c w r w'} (h : X c w r w') : clock w ≤ clock w' := hclock.mono c w r w' h
  -- a step that reads the clock does it second
  have seen {c w r w₁ n w₂ w'} (hc : X c w r w₁) (hnow : X .now w₁ n w₂)
      (hle : clock w₂ ≤ clock w') : clock w ≤ clock w' ∧
        ∀ n', some n = some n' → clock w ≤ n' ∧ n' ≤ clock w' := by
    have h₁ := mono hc
    have h₂ := mono hnow
    refine ⟨(h₁.trans h₂).trans hle, ?_⟩
    rintro _ ⟨⟩
    rw [hclock.now _ _ _ hnow]
    exact ⟨h₁.trans h₂, hle⟩
  cases hstep with
  | loaded _ hload happly => exact ⟨(mono hload).trans (mono happly), fun _ h => nomatch h⟩
  | @rejected r _ _ hload => exact ⟨mono hload, fun _ h => nomatch h⟩
  | reconfigured happly => exact ⟨mono happly, fun _ h => nomatch h⟩
  | unnamed => exact ⟨le_rfl, fun _ h => nomatch h⟩
  | @linked n w₁ w₂ _ _ _ _ _ _ hup hnow hexec _ _ =>
    refine seen hup hnow ?_
    refine hexec.keeps (I := fun s : Mem × ω => clock w₂ ≤ clock s.2) ?_ le_rfl
    rintro (f | c) s r t hs hE
    · rwa [hE.2]
    · exact hs.trans (mono hE.1)
  | unlinked _ hdown hnow _ => exact seen hdown hnow le_rfl
  | reselected _ hdown hnow _ happly => exact seen hdown hnow (mono happly)

/-- **The times of a run do not go back.** -/
theorem run_times {w₀ : ω} {h : List (Record ω)} {s : Mem × ω} (hrun : Run X w₀ h s) :
    (∀ x ∈ h, ∀ n ∈ x.time, n ≤ clock s.2) ∧
      Each (fun p r => ∀ n ∈ r.time, ∀ x ∈ p, ∀ n₀ ∈ Record.time x, n₀ ≤ n) h := by
  refine hrun.rule (I := fun h _ w => (∀ x ∈ h, ∀ n ∈ Record.time x, n ≤ clock w) ∧
    Each (fun p r => ∀ n ∈ Record.time r, ∀ x ∈ p, ∀ n₀ ∈ Record.time x, n₀ ≤ n) h) ?_ ?_ ?_ ?_
  · exact fun _ _ _ _ _ _ _ => ⟨fun _ hx => (nomatch hx), each_nil⟩
  · rintro h m w w' ⟨hpast, heach⟩ ⟨c, r, -, hX⟩
    exact ⟨fun x hx n hn => (hpast x hx n hn).trans (hclock.mono c w r w' hX), heach⟩
  · exact fun _ _ _ _ hI => hI
  · rintro h m w k l m' w' hm ⟨hpast, heach⟩ hstep
    obtain ⟨hle, htime⟩ := time_step hclock hstep
    refine ⟨fun x hx n hn => ?_, each_snoc.mpr ⟨heach, fun n hn x hx n₀ hn₀ => ?_⟩⟩
    · rcases List.mem_append.mp hx with hx | hx
      · exact (hpast x hx n hn).trans hle
      · obtain rfl := List.mem_singleton.mp hx
        exact (htime n hn).2
    · exact (hpast x hx n₀ hn₀).trans (htime n hn).1

end Clock

/-! ## Spacing -/

theorem reselectTime_time {r : Record ω} {n : Instant} (h : n ∈ r.reselectTime) : n ∈ r.time := by
  unfold Record.reselectTime at h
  split at h
  · exact h
  · cases h

theorem reselectTime_eq_some {r : Record ω} {n : Instant} :
    n ∈ r.reselectTime ↔ r.kind = .tick ∧ r.applied ≠ [] ∧ r.time = some n := by
  unfold Record.reselectTime
  split
  · rename_i h
    exact ⟨fun hn => ⟨h.1, h.2, hn⟩, fun hn => hn.2.2⟩
  · rename_i h
    constructor
    · exact nofun
    · exact fun hn => absurd ⟨hn.1, hn.2.1⟩ h

/-- The first loss since the timer was cleared is one of the records since. -/
theorem firstLoss_mem {p : List (Record ω)} {t : Instant} (h : firstLoss p = some t) :
    ∃ x ∈ sinceLast Record.relinks p, x.time = some t := by
  obtain ⟨x, hx, hloss⟩ := List.exists_of_findSome?_eq_some h
  refine ⟨x, hx, ?_⟩
  unfold Record.lossTime at hloss
  split at hloss
  · exact hloss
  · cases hloss

/-- A re-select comes `linkRetrySecs` after a loss seen since the timer was cleared. -/
theorem reselect_after_loss {p : List (Record ω)} {r : Record ω}
    (hr : r.AppliesByRule p ∧ (r.kind = .tick → r.applied ≠ [] → (firstLoss p).isSome = true))
    {n : Instant} (hn : n ∈ r.reselectTime) :
    ∃ x ∈ sinceLast Record.relinks p, ∃ t, x.time = some t ∧
      Duration.fromSecs r.before.1.config.linkRetrySecs ≤ n - t := by
  obtain ⟨hkind, happlied, htime⟩ := reselectTime_eq_some.mp hn
  obtain ⟨t, ht⟩ := Option.isSome_iff_exists.mp (hr.2 hkind happlied)
  obtain ⟨x, hx, hxt⟩ := firstLoss_mem ht
  refine ⟨x, hx, t, hxt, ?_⟩
  have hrule := hr.1
  unfold Record.AppliesByRule at hrule
  rw [hkind] at hrule
  obtain ⟨-, -, n', t', hn', ht', hdue⟩ := by_contra fun h => happlied (hrule.2 h)
  obtain rfl : n' = n := Option.some.inj (hn'.symm.trans htime)
  rw [findSome?_lossTime_snoc, ← firstLoss, ht] at ht'
  obtain rfl : t = t' := Option.some.inj ht'
  exact hdue

/-- **Re-selects are spaced** in every run in which none comes after a failed one without the
timer having been cleared in between.  `hclock` says that the clock is not set back; `hrearmed` is
asked of the whole history, and a run in which no re-select fails meets it. -/
theorem reselects_spaced (X : Env ExtSig ω) (clock : ω → Instant) (hclock : Clock X clock) (w₀ : ω)
    (h : List (Record ω)) (s : Mem × ω) (hrun : Run X w₀ h s) (hrearmed : Rearmed h) :
    Spaced h := by
  rintro p r q rfl n hn x hx n₀ hn₀
  obtain ⟨y, hy, t, ht, hdue⟩ := reselect_after_loss (run_applies hrun p r q rfl) hn
  have htimes := (run_times hclock hrun).2
  obtain ⟨a, ha⟩ := sinceLast_suffix Record.relinks p
  have hyp : y ∈ p := ha ▸ List.mem_append_right a hy
  have hyr : t ≤ n := htimes p r q rfl n (reselectTime_time hn) y hyp t ht
  -- what was selected before the timer was cleared is not after the loss
  have hxy : n₀ ≤ t := by
    have hxa : x ∈ a := by
      rw [← ha] at hx
      refine (List.mem_append.mp hx).resolve_right fun hsince => ?_
      have hnone := hrearmed p r q rfl (by rw [hn]; simp) x hsince
      rw [hnone] at hn₀
      cases hn₀
    obtain ⟨u, v, huv⟩ := List.append_of_mem hy
    refine htimes (a ++ u) y (v ++ r :: q) ?_ t ht x (List.mem_append_left u hxa) n₀
      (reselectTime_time hn₀)
    rw [← ha, huv]
    simp
  calc n₀ + Duration.fromSecs r.before.1.config.linkRetrySecs
      ≤ t + Duration.fromSecs r.before.1.config.linkRetrySecs := Nat.add_le_add_right hxy _
    _ = Duration.fromSecs r.before.1.config.linkRetrySecs + t := Nat.add_comm _ _
    _ ≤ n := Nat.add_le_of_le_sub hyr hdue

/-! ### Two runs of a link without carrier -/

theorem clocked_clock (H : Handler ExtSig ω) (d : Duration) :
    Clock (clocked H d).graph (fun s => s.2) := by
  constructor
  · rintro w n w' ⟨rfl, rfl⟩
    rfl
  · rintro c w r w' ⟨-, rfl⟩
    cases c with
    | now => exact Nat.le_add_right _ _
    | _ => exact le_rfl

/-- Two re-selects that go through are spaced. -/
theorem untilTick_spaced : Spaced (untilTick [] 13).1 :=
  reselects_spaced _ _ (clocked_clock _ _) _ _ _ (run_untilTick [] 13 (by decide)) (by decide)

/-- **A failing re-select is repeated at the next tick.** -/
theorem failing_reselects_repeat :
    let probes : List (Except Error Bool) :=
      [.ok false, .error (.dhcpProbe "bind"), .error (.dhcpProbe "bind")]
    Run unplugged.graph ((oneEthernet [], false, probes), 0) (untilTick probes 7).1
      (untilTick probes 7).2 ∧ ¬ Spaced (untilTick probes 7).1 :=
  ⟨run_untilTick _ 7 (by decide), by decide⟩

end Micronet

import Micronet.History
import Micronet.LiveDaemon

/-!
# Health over histories

The streak and the stored health are two pieces of state that several paths write.
Both are functions of one list: the reasons of the ticks recorded unhealthy since the
last event that resets them (`failures`).  Each step keeps that (`counted_step`), so
it holds in every run.
-/
namespace Micronet
open Interaction Prog

variable {ω : Type} {X : Env ExtSig ω}

/-- What resets the count of failed ticks: a healthy verdict, a tick without carrier, a
successful apply. -/
def Record.recovers (r : Record ω) : Bool :=
  r.verdict = some .healthy || r.lossTime.isSome || r.adopted.isSome

/-- The reasons of the ticks recorded unhealthy since the last reset. -/
def failures (h : List (Record ω)) : List String :=
  (sinceLast Record.recovers h).filterMap Record.failure

/-- What a step does to the list of reasons. -/
def Record.note (r : Record ω) (reasons : List String) : List String :=
  if r.recovers then [] else reasons ++ r.failure.toList

/-- The latest of them is the latest of all. -/
theorem failures_getLast? {h : List (Record ω)} (hne : failures h ≠ []) :
    (h.filterMap Record.failure).getLast? = (failures h).getLast? := by
  obtain ⟨old, hold⟩ := sinceLast_suffix Record.recovers h
  have hsplit : h.filterMap Record.failure = old.filterMap Record.failure ++ failures h := by
    rw [failures, ← List.filterMap_append, hold]
  rw [hsplit, List.getLast?_append_of_ne_nil _ hne]

theorem failures_snoc (h : List (Record ω)) (r : Record ω) :
    failures (h ++ [r]) = r.note (failures h) := by
  unfold failures Record.note
  rw [sinceLast_snoc]
  by_cases hr : r.recovers = true
  · rw [if_pos hr, if_pos hr]
    rfl
  · rw [if_neg hr, if_neg hr, List.filterMap_append]
    cases hf : r.failure <;> simp [hf]

namespace Record
variable {r : Record ω} {reasons : List String}

theorem note_adopted (h : r.adopted.isSome = true) : r.note reasons = [] := by
  simp [note, recovers, h]

theorem note_lost {t : Instant} (h : r.lossTime = some t) : r.note reasons = [] := by
  simp [note, recovers, h]

theorem note_healthy (h : r.verdict = some .healthy) : r.note reasons = [] := by
  simp [note, recovers, h]

theorem note_unhealthy {reason : String} (h : r.verdict = some (.unhealthy reason))
    (hl : r.lossTime = none) (ha : r.adopted = none) : r.note reasons = reasons ++ [reason] := by
  simp [note, recovers, failure, h, hl, ha]

theorem note_none (h : r.verdict = none) (hl : r.lossTime = none) (ha : r.adopted = none) :
    r.note reasons = reasons := by
  simp [note, recovers, failure, h, hl, ha]

end Record

/-! ## The memory counts the failures -/

/-- The health that a list of reasons stands for. -/
def Health.ofReasons (reasons : List String) : Health :=
  if healthFailThreshold ≤ reasons.length then ⟨false, reasons.getLast?⟩ else .ok

namespace Health
variable {reasons : List String}

theorem ofReasons_unhealthy :
    (ofReasons reasons).healthy = false ↔ healthFailThreshold ≤ reasons.length := by
  unfold ofReasons
  split <;> simp_all [Health.ok]

theorem ofReasons_reason (h : healthFailThreshold ≤ reasons.length) :
    (ofReasons reasons).reason = reasons.getLast? := by
  rw [ofReasons, if_pos h]

theorem ofReasons_healthy (h : (ofReasons reasons).healthy = true) :
    (ofReasons reasons).reason = none := by
  unfold ofReasons at *
  split at h
  · cases h
  · rename_i hshort
    rw [if_neg hshort]
    rfl

end Health

/-- Streak and health are those of the list. -/
structure Mem.Counts (m : Mem) (reasons : List String) : Prop where
  /-- The streak counts the failed checks, up to the largest `u32`. -/
  streak : m.failStreak = min reasons.length (2 ^ 32 - 1)
  /-- The health is the one that these failures call for. -/
  health : m.health = .ofReasons reasons

namespace Mem
variable {m : Mem} {reasons : List String}

theorem counts_reset (hm : m.Settled) : ((m.setStreak 0).noteHealth true none).Counts [] := by
  refine ⟨rfl, ?_⟩
  rw [noteHealth_ok (hm.setStreak 0).health_lock]
  rfl

theorem Counts.unhealthy (hm : m.Settled) (h : m.Counts reasons) (reason : String) :
    (m.record (.unhealthy reason)).Counts (reasons ++ [reason]) := by
  have hstreak : saturatingSucc m.failStreak = min (reasons ++ [reason]).length (2 ^ 32 - 1) := by
    rw [saturatingSucc, h.streak, List.length_append, List.length_singleton]
    omega
  have hdue : shouldReportUnhealthy (saturatingSucc m.failStreak) = true ↔
      healthFailThreshold ≤ (reasons ++ [reason]).length := by
    rw [hstreak, shouldReportUnhealthy, decide_eq_true_iff, healthFailThreshold]
    omega
  unfold record
  dsimp only
  by_cases hlong : healthFailThreshold ≤ (reasons ++ [reason]).length
  · rw [if_pos (hdue.mpr hlong)]
    refine ⟨hstreak, ?_⟩
    rw [noteHealth_unhealthy (hm.setStreak _).health_lock, Health.ofReasons, if_pos hlong,
      List.getLast?_concat]
  · rw [if_neg fun h => hlong (hdue.mp h)]
    refine ⟨hstreak, ?_⟩
    have hshort : ¬ healthFailThreshold ≤ reasons.length := by
      rw [List.length_append, List.length_singleton] at hlong
      omega
    rw [setStreak_health, h.health, Health.ofReasons, Health.ofReasons, if_neg hlong, if_neg hshort]

theorem counts_adopt (hm : m.Settled) (st : Status) : (m.adopt st).Counts [] :=
  counts_reset ((hm.setDownSince none).modifyStatus _)

theorem counts_lose (hm : m.Settled) (now : Instant) : (m.lose now).Counts [] := by
  unfold lose
  split
  · exact counts_reset (hm.setDownSince _)
  · exact counts_reset hm

theorem Counts.of_eq {m' : Mem} (h : m.Counts reasons) (hs : m'.failStreak = m.failStreak)
    (hh : m'.health = m.health) : m'.Counts reasons := ⟨hs.trans h.streak, hh.trans h.health⟩

end Mem

/-- **Every step counts** what its record shows. -/
theorem counted_step {k : StepKind} {m m' : Mem} {w w' : ω} {l : Log ExtSig ω}
    {reasons : List String} (hm : m.Settled) (h : m.Counts reasons)
    (hstep : Stepped X m w k l m' w') :
    m'.Counts (Record.note ⟨k, (m, w), l, (m', w')⟩ reasons) := by
  cases hstep with
  | @loaded cfg out w₁ _ hvalid _ _ =>
    have hm := hm.setConfig hvalid
    cases out with
    | ok st =>
      rw [Record.note_adopted rfl, hm.applied_ok]
      exact Mem.counts_adopt hm st
    | error e =>
      rw [Record.note_none (Record.verdict_of_ne_tick (by simp))
        (Record.lossTime_of_ne_tick (by simp)) rfl, hm.applied_error]
      exact h.of_eq rfl rfl
  | rejected _ _ =>
    rwa [Record.note_none (Record.verdict_of_ne_tick (by simp))
      (Record.lossTime_of_ne_tick (by simp)) rfl]
  | @reconfigured out _ _ =>
    cases out with
    | ok st =>
      rw [Record.note_adopted rfl, hm.applied_ok]
      exact Mem.counts_adopt hm st
    | error e =>
      rwa [Record.note_none (Record.verdict_of_ne_tick (by simp))
        (Record.lossTime_of_ne_tick (by simp)) rfl, hm.applied_error]
  | unnamed hiface =>
    rw [Record.note_unhealthy (Record.verdict_unnamed rfl hiface)
      (Record.lossTime_up (by exact nofun)) rfl]
    exact h.unhealthy hm _
  | @linked now w₁ w₂ _ _ seg c d hiface _ _ _ hseg hm' =>
    -- the only step whose verdict is that of the calls it makes
    have hassessed := assessed_linked m.status.mode m.status.iface true now w w₁ seg
    have hm := (hm.setDownSince none).refresh c d
    rw [hm']
    cases hv : assessed m.status.mode seg with
    | healthy =>
      rw [Record.note_healthy (by rw [Record.verdict_up ⟨rfl, hiface⟩ rfl, hassessed, hv])]
      exact Mem.counts_reset hm
    | unhealthy reason =>
      rw [Record.note_unhealthy (by rw [Record.verdict_up ⟨rfl, hiface⟩ rfl, hassessed, hv])
        (Record.lossTime_up (by exact nofun)) (by exact hseg.adopted)]
      have hcounts : ((m.setDownSince none).refresh c d).Counts reasons := h.of_eq rfl rfl
      exact hcounts.unhealthy hm reason
  | @unlinked now w₁ _ hiface _ _ _ =>
    rw [Record.note_lost (t := now) (Record.lossTime_down ⟨rfl, hiface⟩ rfl)]
    exact Mem.counts_lose hm now
  | @reselected now out w₁ w₂ _ hiface _ _ _ _ =>
    rw [Record.note_lost (t := now) (Record.lossTime_down ⟨rfl, hiface⟩ rfl)]
    have hlost := hm.lose now
    cases out with
    | ok st => exact (hlost.applied_ok st).symm ▸ Mem.counts_adopt hlost st
    | error e => exact (hlost.applied_error e).symm ▸ Mem.counts_lose hm now

/-! ## Runs -/

/-- Neither failed applies nor invalid reloads touch the health. -/
theorem health_unchanged {k : StepKind} {m m' : Mem} {w w' : ω} {l : Log ExtSig ω}
    (hstep : Stepped X m w k l m' w') (hk : k ≠ .tick)
    (hfailed : Record.adopted ⟨k, (m, w), l, (m', w')⟩ = none) : m'.health = m.health := by
  cases hstep with
  | @loaded cfg out w₁ _ hvalid _ _ =>
    cases out with
    | ok st => cases hfailed
    | error e => rfl
  | rejected _ _ => rfl
  | @reconfigured out _ _ =>
    cases out with
    | ok st => cases hfailed
    | error e => rfl
  | _ => exact absurd rfl hk

/-- **The streak and the health are those of the history**, in every run. -/
theorem run_counts {w₀ : ω} {h : List (Record ω)} {s : Mem × ω} (hrun : Run X w₀ h s) :
    s.1.Counts (failures h) := by
  refine hrun.rule (I := fun h m _ => m.Counts (failures h)) ?_ ?_ ?_ ?_
  · exact fun _ _ _ _ _ _ _ => ⟨rfl, rfl⟩
  · exact fun _ _ _ _ hI _ => hI
  · exact fun _ _ _ _ hI => hI.of_eq rfl rfl
  · intro h m w k l m' w' hm hI hstep
    rw [failures_snoc]
    exact counted_step hm hI hstep

/-- The health in `m` is exactly that of the history `h`, which leads there. -/
structure HealthExact (h : List (Record ω)) (m : Mem) : Prop where
  /-- It is bad when as many ticks as the threshold were recorded unhealthy since the last
  reset, and only then. -/
  unhealthy_iff : m.health.healthy = false ↔
    healthFailThreshold ≤ ((sinceLast Record.recovers h).filterMap Record.failure).length
  /-- Its reason is then that of the latest of them. -/
  reason : m.health.healthy = false → m.health.reason = (h.filterMap Record.failure).getLast?
  no_reason : m.health.healthy = true → m.health.reason = none
  /-- Failed applies and invalid reloads leave it alone. -/
  kept : ∀ r ∈ h, r.kind ≠ .tick → r.adopted = none → r.after.1.health = r.before.1.health

/-- **Health hysteresis is exact**, in every run, whatever the outside does (`X`): the failed checks
since the last reset determine the health between any two steps.  It is bad exactly from the third
one on, and then for the reason of the last. -/
theorem health_hysteresis_exact (X : Env ExtSig ω) (w₀ : ω) (h : List (Record ω)) (s : Mem × ω)
    (hrun : Run X w₀ h s) : HealthExact h s.1 := by
  have hhealth : s.1.health = .ofReasons (failures h) := (run_counts hrun).health
  refine ⟨hhealth ▸ Health.ofReasons_unhealthy, fun hbad => ?_,
    hhealth ▸ Health.ofReasons_healthy, ?_⟩
  · rw [hhealth] at hbad ⊢
    have hlong := Health.ofReasons_unhealthy.mp hbad
    have hne : failures h ≠ [] := by
      intro hnil
      rw [hnil] at hlong
      exact absurd hlong (by decide)
    rw [Health.ofReasons_reason hlong, failures_getLast? hne]
  · refine hrun.rule (I := fun h _ _ => ∀ r ∈ h, r.kind ≠ .tick → r.adopted = none →
      r.after.1.health = r.before.1.health) ?_ ?_ ?_ ?_
    · exact fun _ _ _ _ _ _ _ _ hr => nomatch hr
    · exact fun _ _ _ _ hI _ => hI
    · exact fun _ _ _ _ hI => hI
    · intro h m w k l m' w' _ hI hstep r hr hk hfailed
      rcases List.mem_append.mp hr with hr | hr
      · exact hI r hr hk hfailed
      · obtain rfl := List.mem_singleton.mp hr
        exact health_unchanged hstep hk hfailed

/-- Three ticks without an interface. -/
theorem empty_iface_counted :
    HealthExact (records noEthernet noEthernetStart [.tick, .tick, .tick])
      (final noEthernet noEthernetStart [.tick, .tick, .tick]).1 :=
  health_hysteresis_exact _ _ _ _ (run_noEthernet _)

example : (final noEthernet noEthernetStart [.tick, .tick, .tick]).1.health =
    ⟨false, some "empty iface"⟩ := by decide

end Micronet

import Micronet.History
import Micronet.LiveDaemon

/-!
# Choose once, then watch the link

`down_since` is set, kept and cleared on several paths.  It is the time of the first
tick without carrier since the last tick with carrier or successful apply
(`firstLoss`), which makes the re-select of a tick a statement about the history.
-/
namespace Micronet
open Interaction Prog

variable {ω : Type} {X : Env ExtSig ω}

/-- What clears the timer: a tick with carrier, or a successful apply. -/
def Record.relinks (r : Record ω) : Bool :=
  decide (r.Watches ∧ r.carrier = some true) || r.adopted.isSome

/-- The first tick without carrier since. -/
def firstLoss (h : List (Record ω)) : Option Instant :=
  (sinceLast Record.relinks h).findSome? Record.lossTime

theorem findSome?_lossTime_snoc (h : List (Record ω)) (r : Record ω) :
    (h ++ [r]).findSome? Record.lossTime = (h.findSome? Record.lossTime).or r.lossTime := by
  rw [List.findSome?_append]
  cases hf : r.lossTime <;> simp [hf]

theorem firstLoss_snoc (h : List (Record ω)) (r : Record ω) :
    firstLoss (h ++ [r]) = if r.relinks then none else (firstLoss h).or r.lossTime := by
  unfold firstLoss
  rw [sinceLast_snoc]
  by_cases hr : r.relinks = true
  · rw [if_pos hr, if_pos hr]
    rfl
  · rw [if_neg hr, if_neg hr, findSome?_lossTime_snoc]

theorem shouldReselect_iff {since : Option Instant} {now : Instant} {retry : Duration} :
    shouldReselect false since now retry = true ↔ ∃ t, since = some t ∧ retry ≤ now - t := by
  cases since <;> simp [shouldReselect]

namespace Mem
variable {m : Mem}

@[simp] theorem adopt_link (st : Status) : (m.adopt st).link = ⟨none⟩ := rfl

theorem lose_downSince (now : Instant) :
    (m.lose now).link.downSince = m.link.downSince.or (some now) := by
  unfold lose
  cases h : m.link.downSince with
  | none => rfl
  | some t => exact h

theorem overdue_iff {now : Instant} :
    m.overdue now = true ↔ ∃ t, m.link.downSince.or (some now) = some t ∧
      Duration.fromSecs m.config.linkRetrySecs ≤ now - t := by
  rw [← lose_downSince]
  exact shouldReselect_iff

end Mem

/-! ## The timer -/

namespace Record
variable {r : Record ω} {t : Option Instant}

/-- What a step does to the time of the first loss. -/
def rewind (r : Record ω) (t : Option Instant) : Option Instant :=
  if r.relinks then none else t.or r.lossTime

theorem rewind_adopted (h : r.adopted.isSome = true) : r.rewind t = none := by
  simp [rewind, relinks, h]

theorem rewind_up (h : r.Watches) (hup : r.carrier = some true) : r.rewind t = none := by
  simp [rewind, relinks, h, hup]

theorem rewind_quiet (h : r.carrier = none) (ha : r.adopted = none) : r.rewind t = t := by
  simp [rewind, relinks, lossTime, h, ha]

theorem rewind_down (h : r.Watches) (hdown : r.carrier = some false) (ha : r.adopted = none) :
    r.rewind t = t.or r.time := by
  rw [rewind, lossTime_down h hdown]
  simp [relinks, hdown, ha]

end Record

/-- **Every step keeps the timer** at the first loss its record shows. -/
theorem timed_step {k : StepKind} {m m' : Mem} {w w' : ω} {l : Log ExtSig ω}
    (hm : m.Settled) (hstep : Stepped X m w k l m' w') :
    m'.link.downSince = Record.rewind ⟨k, (m, w), l, (m', w')⟩ m.link.downSince := by
  cases hstep with
  | @loaded cfg out w₁ _ hvalid _ _ =>
    have hm := hm.setConfig hvalid
    cases out with
    | ok st => rw [Record.rewind_adopted rfl, hm.applied_ok, Mem.adopt_link]
    | error e => rw [Record.rewind_quiet rfl rfl, hm.applied_error, Mem.setConfig_link]
  | @rejected r w' hinvalid _ =>
    cases r with
    | ok cfg => rw [Record.rewind_quiet rfl rfl]
    | error e => rw [Record.rewind_quiet rfl rfl]
  | @reconfigured out _ _ =>
    cases out with
    | ok st => rw [Record.rewind_adopted rfl, hm.applied_ok, Mem.adopt_link]
    | error e => rw [Record.rewind_quiet rfl rfl, hm.applied_error]
  | unnamed _ => rw [Record.rewind_quiet rfl rfl, Mem.record_link]
  | linked hiface _ _ _ _ hm' =>
    rw [Record.rewind_up ⟨rfl, hiface⟩ rfl, hm', Mem.record_link, Mem.refresh_link,
      Mem.setDownSince_link]
  | unlinked hiface _ _ _ =>
    rw [Record.rewind_down ⟨rfl, hiface⟩ rfl rfl, Mem.lose_downSince]
    rfl
  | @reselected now out w₁ w₂ _ hiface _ _ _ _ =>
    have hm := hm.lose now
    cases out with
    | ok st => rw [Record.rewind_adopted rfl, hm.applied_ok, Mem.adopt_link]
    | error e =>
      rw [Record.rewind_down ⟨rfl, hiface⟩ rfl rfl, hm.applied_error, Mem.lose_downSince]
      rfl

/-- **The timer is that of the history**, in every run. -/
theorem run_timed {w₀ : ω} {h : List (Record ω)} {s : Mem × ω} (hrun : Run X w₀ h s) :
    s.1.link.downSince = firstLoss h := by
  refine hrun.rule (I := fun h m _ => m.link.downSince = firstLoss h) ?_ ?_ ?_ ?_
  · exact fun _ _ _ _ _ _ _ => rfl
  · exact fun _ _ _ _ hI _ => hI
  · exact fun _ _ _ _ hI => hI
  · intro h m w k l m' w' hm hI hstep
    rw [firstLoss_snoc, timed_step hm hstep, hI]
    rfl

/-! ## What is applied, and when -/

/-- After the history `p`, the tick selects again: it finds no carrier, and the first
tick that found none is at least `linkRetrySecs` ago. -/
def Record.Reselects (p : List (Record ω)) (r : Record ω) : Prop :=
  r.Watches ∧ r.carrier = some false ∧ ∃ n t, r.time = some n ∧
    (sinceLast Record.relinks p ++ [r]).findSome? Record.lossTime = some t ∧
    Duration.fromSecs r.before.1.config.linkRetrySecs ≤ n - t

/-- What the step applies after the history `p`: a reload the configuration loaded if it
is valid, a reconfigure the current one, a tick the current one when it selects again. -/
def Record.AppliesByRule (p : List (Record ω)) (r : Record ω) : Prop :=
  match r.kind with
  | .reload => (∀ cfg, r.loaded = some cfg → cfg.Valid → r.applied = [cfg]) ∧
      ((∀ cfg, r.loaded = some cfg → ¬ cfg.Valid) → r.applied = [])
  | .reconfigure => r.applied = [r.before.1.config]
  | .tick => (r.Reselects p → r.applied = [r.before.1.config]) ∧ (¬ r.Reselects p → r.applied = [])

/-- The timer decides the rule. -/
theorem reselects_iff {p : List (Record ω)} {m m' : Mem} {w w' w₁ : ω} {now : Instant}
    {l : Log ExtSig ω} (hiface : m.status.iface ≠ "") (htimed : m.link.downSince = firstLoss p) :
    Record.Reselects p ⟨.tick, (m, w),
        ⟨.ctl (.net (.carrierUp m.status.iface)), w, false⟩ :: ⟨.now, w₁, now⟩ :: l, (m', w')⟩ ↔
      m.overdue now = true := by
  rw [Mem.overdue_iff, htimed]
  unfold Record.Reselects
  rw [findSome?_lossTime_snoc, Record.lossTime_down ⟨rfl, hiface⟩ rfl]
  constructor
  · rintro ⟨-, -, n, t, hn, ht, hdue⟩
    obtain rfl : now = n := Option.some.inj hn
    exact ⟨t, ht, hdue⟩
  · rintro ⟨t, ht, hdue⟩
    exact ⟨⟨rfl, hiface⟩, rfl, now, t, rfl, ht, hdue⟩

theorem not_reselects_up {p : List (Record ω)} {r : Record ω} (h : r.carrier ≠ some false) :
    ¬ r.Reselects p := fun hr => h hr.2.1

/-- **Every step applies by the rule.** -/
theorem applies_step {k : StepKind} {m m' : Mem} {w w' : ω} {l : Log ExtSig ω}
    {p : List (Record ω)} (htimed : m.link.downSince = firstLoss p)
    (hstep : Stepped X m w k l m' w') : Record.AppliesByRule p ⟨k, (m, w), l, (m', w')⟩ := by
  cases hstep with
  | @loaded cfg out w₁ _ hvalid _ _ =>
    refine ⟨fun cfg' hcfg _ => ?_, fun hinvalid => absurd hvalid (hinvalid cfg rfl)⟩
    obtain rfl : cfg = cfg' := Option.some.inj hcfg
    rfl
  | @rejected r w' hinvalid _ =>
    refine ⟨fun cfg hcfg hvalid => ?_, fun _ => ?_⟩
    · cases r with
      | ok cfg' =>
        obtain rfl : cfg' = cfg := Option.some.inj hcfg
        exact absurd hvalid (hinvalid _ rfl)
      | error e => cases hcfg
    · cases r <;> rfl
  | reconfigured _ => exact rfl
  | unnamed hiface => exact ⟨fun h => absurd hiface h.1.2, fun _ => rfl⟩
  | linked _ _ _ _ hseg _ =>
    exact ⟨fun h => absurd h (not_reselects_up (by exact nofun)), fun _ => hseg.applied⟩
  | unlinked hiface _ _ hearly =>
    refine ⟨fun h => ?_, fun _ => rfl⟩
    rw [reselects_iff hiface htimed, hearly] at h
    cases h
  | reselected hiface _ _ hdue _ =>
    exact ⟨fun _ => rfl, fun h => absurd ((reselects_iff hiface htimed).mpr hdue) h⟩

/-- A tick that selects again is not the first without carrier. -/
theorem reselects_later {p : List (Record ω)} {r : Record ω} (hvalid : r.before.1.config.Valid)
    (h : r.Reselects p) : (firstLoss p).isSome = true := by
  obtain ⟨hw, hdown, n, t, hn, ht, hdue⟩ := h
  rw [findSome?_lossTime_snoc, Record.lossTime_down hw hdown, hn] at ht
  cases hfirst : firstLoss p with
  | some t' => rfl
  | none =>
    unfold firstLoss at hfirst
    rw [hfirst] at ht
    obtain rfl : n = t := Option.some.inj ht
    rw [Nat.sub_self] at hdue
    have hpos := Duration.fromSecs_pos hvalid.linkRetrySecs_ne_zero
    exact absurd hdue (Nat.not_le_of_lt hpos)

/-! ## What is chosen -/

/-- What a selection fixes. -/
def Status.choice (s : Status) : Mode × String × Bool × Bool :=
  (s.mode, s.iface, s.foreignDhcp, s.gatewayReachable)

/-- Only a successful apply chooses. -/
theorem choice_step {k : StepKind} {m m' : Mem} {w w' : ω} {l : Log ExtSig ω} (hm : m.Settled)
    (hstep : Stepped X m w k l m' w') (hfailed : Record.adopted ⟨k, (m, w), l, (m', w')⟩ = none) :
    m'.status.choice = m.status.choice := by
  cases hstep with
  | @loaded cfg out w₁ _ hvalid _ _ =>
    cases out with
    | ok st => cases hfailed
    | error e => rfl
  | rejected _ _ => rfl
  | @reconfigured out _ _ =>
    cases out with
    | ok st => cases hfailed
    | error e => rfl
  | unnamed _ => rw [Mem.record_status]
  | linked _ _ _ _ _ hm' =>
    rw [hm', Mem.record_status, Mem.refresh_status (hm.setDownSince none).status_lock]
    rfl
  | unlinked _ _ _ _ => rw [Mem.lose_status]
  | @reselected now out w₁ w₂ _ _ _ _ _ _ =>
    cases out with
    | ok st => cases hfailed
    | error e => rw [Mem.applied_error_status, Mem.lose_status]

/-- A step probes nothing but by its apply. -/
theorem no_probe_step {k : StepKind} {m m' : Mem} {w w' : ω} {l : Log ExtSig ω}
    (hstep : Stepped X m w k l m' w') :
    ∀ e ∈ l, ∀ i d, e.op ≠ .ctl (.gw (.probeForeignDhcp i d)) := by
  cases hstep with
  | linked _ _ _ _ hseg _ =>
    simp only [List.forall_mem_cons]
    refine ⟨fun _ _ => nofun, fun _ _ => nofun, fun e he i d => ?_⟩
    obtain ⟨c, hc, hne⟩ := hseg e he
    rw [hc]
    exact fun h => hne i d (ExtCall.ctl.inj h)
  | _ => simp

/-! ## Runs -/

section Run
variable {w₀ : ω} {h : List (Record ω)} {s : Mem × ω}

/-- What each step of a run applies, by the history before it. -/
theorem run_applies (hrun : Run X w₀ h s) :
    Each (fun p r => r.AppliesByRule p ∧
      (r.kind = .tick → r.applied ≠ [] → (firstLoss p).isSome = true)) h := by
  induction hrun with
  | start _ => exact each_nil
  | pause _ _ _ ih => exact ih
  | timer _ _ ih => exact ih
  | @step h m m' w w' l k hrun hexec ih =>
    have hrule := applies_step (run_timed hrun) (step_cases hrun.settled hexec)
    refine each_snoc.mpr ⟨ih, hrule, ?_⟩
    rintro rfl happlied
    by_cases hr : Record.Reselects h ⟨.tick, (m, w), l, (m', w')⟩
    · exact reselects_later hrun.settled.valid hr
    · exact absurd (hrule.2 hr) happlied

/-- As long as no apply succeeds, what was chosen stays. -/
theorem run_choice (hrun : Run X w₀ h s) :
    ∀ p r q, h = p ++ r :: q → (∀ x ∈ r :: q, x.adopted = none) →
      s.1.status.choice = r.before.1.status.choice := by
  refine hrun.rule (I := fun h m _ => ∀ p r q, h = p ++ r :: q →
    (∀ x ∈ r :: q, Record.adopted x = none) → m.status.choice = r.before.1.status.choice)
    ?_ ?_ ?_ ?_
  · intro _ _ _ _ _ _ _ p r q h
    simp at h
  · exact fun _ _ _ _ hI _ => hI
  · exact fun _ _ _ _ hI => hI
  · intro h m w k l m' w' hm hI hstep p r q hsplit hfailed
    induction q using List.reverseRecOn with
    | nil =>
      obtain ⟨-, hr⟩ := List.append_inj' hsplit rfl
      obtain rfl := List.singleton_inj.mp hr
      exact choice_step hm hstep (hfailed _ (List.mem_singleton_self _))
    | append_singleton q x _ =>
      rw [← List.cons_append, ← List.append_assoc] at hsplit
      obtain ⟨rfl, hx⟩ := List.append_inj' hsplit rfl
      obtain rfl := List.singleton_inj.mp hx
      have hlast := choice_step hm hstep (hfailed _ (by simp))
      exact hlast.trans (hI p r q rfl fun x hx => hfailed x (List.mem_append_left [_] hx))

theorem run_no_probe (hrun : Run X w₀ h s) :
    ∀ r ∈ h, ∀ e ∈ r.events, ∀ i d, e.op ≠ .ctl (.gw (.probeForeignDhcp i d)) := by
  refine hrun.rule (I := fun h _ _ => ∀ r ∈ h, ∀ e ∈ Record.events r, ∀ i d,
    e.op ≠ .ctl (.gw (.probeForeignDhcp i d))) ?_ ?_ ?_ ?_
  · exact fun _ _ _ _ _ _ _ r hr => (nomatch hr)
  · exact fun _ _ _ _ hI _ => hI
  · exact fun _ _ _ _ hI => hI
  · intro h m w k l m' w' _ hI hstep r hr
    rcases List.mem_append.mp hr with hr | hr
    · exact hI r hr
    · obtain rfl := List.mem_singleton.mp hr
      exact no_probe_step hstep

end Run

/-- The history `h`, which leads to the memory `m`, chooses once and watches. -/
structure ChosenOnce (h : List (Record ω)) (m : Mem) : Prop where
  /-- Every step applies by the rule, and no tick that first sees a loss applies. -/
  applies : Each (fun p r => r.AppliesByRule p ∧
    (r.kind = .tick → r.applied ≠ [] → (firstLoss p).isSome = true)) h
  /-- Only an apply probes. -/
  probes : ∀ r ∈ h, ∀ e ∈ r.events, ∀ i d, e.op ≠ .ctl (.gw (.probeForeignDhcp i d))
  /-- Without a successful apply since the step `r`, its choice is still that of `m`. -/
  choice : ∀ p r q, h = p ++ r :: q → (∀ x ∈ r :: q, x.adopted = none) →
    m.status.choice = r.before.1.status.choice

/-- **Choose once, then only watch the link**, in every run, whatever the outside does (`X`): the
timer, the probes and the choice of an interface are determined by the steps so far.  Nothing is
assumed of the clock or of the interfaces. -/
theorem choose_once_then_watch (X : Env ExtSig ω) (w₀ : ω) (h : List (Record ω)) (s : Mem × ω)
    (hrun : Run X w₀ h s) : ChosenOnce h s.1 :=
  ⟨run_applies hrun, run_no_probe hrun, run_choice hrun⟩

/-! ### A link without carrier -/

/-- The outside of `H` with a clock, on which `now` lets `d` pass. -/
def clocked (H : Handler ExtSig ω) (d : Duration) : Handler ExtSig (ω × Instant)
  | .now, s => (s.2 + d, s.1, s.2 + d)
  | c, s => ((H c s.1).1, (H c s.1).2, s.2)

/-- A pinned Ethernet without carrier, with a script of probe answers; ticks come every
`statusRefresh`. -/
def unplugged : Handler ExtSig ((Net × Bool × List (Except Error Bool)) × Instant) :=
  clocked (liveHandler (ctlHandler Lan.silent.net Dnsmasq.scripted)
    (.ok { interface := some "eth0" })) statusRefresh

/-- The start, and `n` ticks. -/
def untilTick (probes : List (Except Error Bool)) (n : Nat) :=
  let s := (boots unplugged ((oneEthernet [], false, probes), 0)).2
  (records unplugged s (List.replicate n .tick), final unplugged s (List.replicate n .tick))

theorem run_untilTick (probes : List (Except Error Bool)) (n : Nat)
    (hstart : (boots unplugged ((oneEthernet [], false, probes), 0)).1 = .ok ()) :
    Run unplugged.graph ((oneEthernet [], false, probes), 0) (untilTick probes n).1
      (untilTick probes n).2 :=
  run_of_handler (Handler.implements_graph _) hstart _

/-- The first tick starts the timer, the sixth selects again. -/
theorem unplugged_chosen_once :
    ChosenOnce (untilTick [] 7).1 (untilTick [] 7).2.1 ∧
      (untilTick [] 7).1.map (fun r => r.applied.length) = [0, 0, 0, 0, 0, 1, 0] :=
  ⟨choose_once_then_watch _ _ _ _ (run_untilTick [] 7 (by decide)), by decide⟩

end Micronet

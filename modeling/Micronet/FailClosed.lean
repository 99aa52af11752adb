import Micronet.LiveDaemon

/-!
# Fail closed

Every start of dnsmasq is to follow a probe that has completed without an offer.
One apply keeps to it: it starts dnsmasq only after its own probe.  A tick that
restarts dnsmasq relies on the cached mode alone, so it keeps to it as long as the
cached mode is `Gateway` only after such a probe.  An apply that fails leaves the
cached mode: `Record.Trusted` says when that breaks the law, and
`reconfigure_fails_open` is a run that does.
-/
namespace Micronet
open Interaction Prog

variable {σ : Type}

/-- At every start of dnsmasq, the most recent probe had completed without an offer. -/
def FailClosed (l : Log CtlSig σ) : Prop :=
  Each (fun p e => Event.startsDnsmasq e = true → lastProbe p = some (.ok false)) l

@[simp] theorem failClosed_nil : FailClosed ([] : Log CtlSig σ) := each_nil

@[simp] theorem failClosed_snoc {l : Log CtlSig σ} {e : Event CtlSig σ} :
    FailClosed (l ++ [e]) ↔
      FailClosed l ∧ (Event.startsDnsmasq e = true → lastProbe l = some (.ok false)) :=
  each_snoc

/-- The call is no probe and does not start dnsmasq. -/
def CtlCall.Quiet : CtlCall → Prop
  | .gw (.probeForeignDhcp _ _) | .gw (.dhcpReloadOrRestart _ _) => False
  | _ => True

theorem quiet_probe {e : Event CtlSig σ} (he : CtlCall.Quiet e.op) : Event.probe e = none := by
  obtain ⟨op, pre, ret⟩ := e
  cases op with
  | net c => rfl
  | gw c => cases c <;> first | rfl | exact he.elim

theorem quiet_start {e : Event CtlSig σ} (he : CtlCall.Quiet e.op) :
    Event.startsDnsmasq e = false := by
  obtain ⟨op, pre, ret⟩ := e
  cases op with
  | net c => rfl
  | gw c => cases c <;> first | rfl | exact he.elim

/-! ## One apply -/

section Apply
variable {E : Env CtlSig σ} {cfg : Config} {k : String} {s : σ} {l : Log CtlSig σ}

/-- The probe is asked before anything is started. -/
theorem wpE_seekOffer_probe :
    wpE E.logged (seekOffer cfg k)
      (fun foreign t => FailClosed t.2 ∧ lastProbe t.2 = some (.ok foreign))
      (fun _ t => FailClosed t.2 ∧ aborted t.2 = true) (s, []) := by
  have hquiet : ∀ op, CtlCall.Isolates k op → CtlCall.Quiet op := by
    intro op hop
    unfold CtlCall.Isolates at hop
    split at hop <;> trivial
  unfold seekOffer
  rw [wpE_bind, wpE_lift]
  refine wp_mono (wp_within (I := fun t : σ × Log CtlSig σ => FailClosed t.2) ?_
    (within_isolateIface (K := fun _ => True) hquiet trivial) failClosed_nil) ?_
  · intro op u r v hop hu hE
    rw [hE.2]
    exact failClosed_snoc.mpr ⟨hu, fun h => by rw [quiet_start hop] at h; cases h⟩
  · rintro - ⟨t, l⟩ ⟨-, hl⟩
    have hl : FailClosed l := hl
    simp [-Bool.forall_bool, -List.append_assoc, probeOn, forall_except, hl,
      Event.startsDnsmasq, Event.probe, Event.failed, CtlCall.isErr, NetCall.isErr, GwCall.isErr]

/-- Without an offer, what a mode starts follows the probe. -/
theorem wpE_applyMode_probe {ip : Ipv4Addr} {mode : Mode} (hl : FailClosed l)
    (hprobe : lastProbe l = some (.ok false)) :
    wpE E.logged (applyMode cfg k ip mode)
      (fun _ t => FailClosed t.2 ∧ lastProbe t.2 = some (.ok false))
      (fun _ t => FailClosed t.2 ∧ aborted t.2 = true) (s, l) := by
  cases mode with
  | client =>
    simp [-Bool.forall_bool, -List.append_assoc, applyMode, applyClient, forall_except, hl, hprobe,
      Event.startsDnsmasq, Event.probe, Event.failed, CtlCall.isErr, NetCall.isErr, GwCall.isErr]
  | static =>
    simp [-Bool.forall_bool, -List.append_assoc, applyMode, applyStatic, forall_except, hl, hprobe,
      Event.startsDnsmasq, Event.probe, Event.failed, CtlCall.isErr, NetCall.isErr, GwCall.isErr]
  | gateway =>
    simp [-Bool.forall_bool, -List.append_assoc, applyMode, applyGateway, forall_except, hl, hprobe,
      Event.startsDnsmasq, Event.probe, Event.failed, CtlCall.isErr, NetCall.isErr, GwCall.isErr]

variable (cfg) in
/-- An offer leads to `Client`, which starts no dnsmasq. -/
theorem wpE_applyClient_probe (hl : FailClosed l) :
    wpE E.logged (applyClient cfg k) (fun st t => FailClosed t.2 ∧ st.mode = .client)
      (fun _ t => FailClosed t.2 ∧ aborted t.2 = true) (s, l) := by
  simp [-Bool.forall_bool, -List.append_assoc, applyClient, forall_except, hl,
    Event.startsDnsmasq, Event.failed, CtlCall.isErr, NetCall.isErr, GwCall.isErr]

theorem wpE_applyOffer_probe {foreign : Bool} (hl : FailClosed l)
    (hprobe : lastProbe l = some (.ok foreign)) :
    wpE E.logged (applyOffer cfg k foreign)
      (fun st t => FailClosed t.2 ∧ (st.mode = .gateway → lastProbe t.2 = some (.ok false)))
      (fun _ t => FailClosed t.2 ∧ aborted t.2 = true) (s, l) := by
  cases foreign with
  | true =>
    refine wpE_mono (wpE_applyClient_probe cfg hl) ?_ fun _ _ h => h
    rintro st t ⟨ht, hmode⟩
    exact ⟨ht, fun h => by rw [hmode] at h; cases h⟩
  | false =>
    show wpE _ (applyLocal cfg k) _ _ _
    unfold applyLocal
    rw [wpE_bind]
    refine wpE_mono (Q := fun _ t => FailClosed t.2 ∧ lastProbe t.2 = some (.ok false))
      (R := fun _ t => FailClosed t.2 ∧ aborted t.2 = true) ?_ ?_ fun _ _ h => h
    · simp [-Bool.forall_bool, -List.append_assoc, assignStatic, forall_except, hl, hprobe,
        Event.startsDnsmasq, Event.probe, Event.failed, CtlCall.isErr, NetCall.isErr]
    rintro - ⟨t, m⟩ ⟨hm, hprobe⟩
    have hm : FailClosed m := hm
    have hprobe : lastProbe m = some (.ok false) := hprobe
    rw [wpE_bind]
    refine wpE_mono (Q := fun _ t => FailClosed t.2 ∧ lastProbe t.2 = some (.ok false))
      (R := fun _ _ => False) ?_ ?_ fun _ _ h => h.elim
    · simp [-Bool.forall_bool, -List.append_assoc, askGateway, hm, hprobe,
        Event.startsDnsmasq, Event.probe]
    rintro b ⟨u, m'⟩ ⟨hm', hprobe'⟩
    exact wpE_mono (wpE_applyMode_probe hm' hprobe') (fun _ _ h => ⟨h.1, fun _ => h.2⟩)
      fun _ _ h => h

theorem wpE_applyOn_probe :
    wpE E.logged (applyOn cfg k)
      (fun st t => FailClosed t.2 ∧ (st.mode = .gateway → lastProbe t.2 = some (.ok false)))
      (fun _ t => FailClosed t.2 ∧ aborted t.2 = true) (s, []) := by
  unfold applyOn
  rw [wpE_bind]
  refine wpE_mono wpE_seekOffer_probe ?_ fun _ _ h => h
  exact fun foreign t ⟨ht, hprobe⟩ => wpE_applyOffer_probe ht hprobe

/-- A start elsewhere in a log: what came before a whole log does not matter to the
starts in it. -/
theorem FailClosed.append {m : Log CtlSig σ} (hl : FailClosed l) (hm : FailClosed m) :
    FailClosed (l ++ m) := by
  refine each_append.mpr ⟨hl, Each.mono hm fun p e h hstart => ?_⟩
  rw [lastProbe, lastOf_append, ← lastProbe, h hstart]
  rfl

/-- **One apply fails closed**: it starts dnsmasq only after its own probe, ends in
`Gateway` only after such a probe, and an error is that of its last call. -/
theorem apply_failClosed {t : σ} {r : Except Error Status}
    (h : (applyWith cfg).run.Exec E.logged (s, []) r (t, l)) :
    FailClosed l ∧ (∀ st, r = .ok st → st.mode = .gateway → lastProbe l = some (.ok false)) ∧
      (∀ e, r = .error e → lastProbe l = none ∨ aborted l = true) := by
  have hresolve (r : Except Error String) :
      FailClosed [(⟨.net (.resolveIface cfg.interface), s, r⟩ : Event CtlSig σ)] :=
    each_singleton.mpr fun h => (nomatch h)
  rcases exec_applyWith h with ⟨e, rfl, ⟨_, rfl⟩ | rfl⟩ | ⟨k, u, seg, _, _, rfl, hon⟩
  · exact ⟨failClosed_nil, fun _ h => (nomatch h), fun _ _ => Or.inl rfl⟩
  · exact ⟨hresolve _, fun _ h => (nomatch h), fun _ _ => Or.inl rfl⟩
  · have hseg := wpE_iff.mp wpE_applyOn_probe _ _ hon
    cases r with
    | ok st =>
      refine ⟨(hresolve _).append hseg.1, fun st' hst hmode => ?_, fun _ h => (nomatch h)⟩
      cases hst
      have hprobe : lastProbe seg = some (.ok false) := hseg.2 hmode
      rw [lastProbe, lastOf_cons, ← lastProbe, hprobe]
      rfl
    | error e =>
      refine ⟨(hresolve _).append hseg.1, fun _ h => (nomatch h), fun _ _ => Or.inr ?_⟩
      exact (aborted_cons rfl seg).trans hseg.2

end Apply

/-! ## Runs -/

/-- When the step begins with `Gateway` cached on an interface and its last call
fails, the step has not probed, or its probe has completed without an offer. -/
def Record.Trusted (r : Record (σ × Log CtlSig σ)) : Prop :=
  r.before.1.status.mode = .gateway → r.before.1.status.iface ≠ "" →
    ∀ seg, r.after.2.2 = r.before.2.2 ++ seg → aborted seg = true →
      lastProbe seg = none ∨ lastProbe seg = some (.ok false)

section Run
variable {W : Env CtlSig σ} {D : σ → σ → Prop}

/-- The log is closed, and a cached `Gateway` stands on a probe without an offer. -/
def Vouched (m : Mem) (l : Log CtlSig σ) : Prop :=
  FailClosed l ∧
    (m.status.mode = .gateway → m.status.iface ≠ "" → lastProbe l = some (.ok false))

theorem vouched_of_status {m m' : Mem} {l : Log CtlSig σ} (h : Vouched m l)
    (hs : m'.status = m.status) : Vouched m' l := by
  unfold Vouched at *
  rwa [hs]

/-- An apply keeps it, if its failure leaves a mode that can be trusted. -/
theorem Vouched.applied {m : Mem} {cfg : Config} {out : Except Error Status}
    {w w' : σ × Log CtlSig σ} (hm : m.Settled) (h : Vouched m w.2)
    (hX : liveLog W D (.apply cfg) w out w')
    (htrust : m.status.mode = .gateway → m.status.iface ≠ "" → ∀ seg, w'.2 = w.2 ++ seg →
      aborted seg = true → lastProbe seg = none ∨ lastProbe seg = some (.ok false)) :
    Vouched (m.applied out) w'.2 := by
  obtain ⟨seg, hl, hseg⟩ := liveLog_apply hX
  obtain ⟨hclosed, hok, herror⟩ := apply_failClosed hseg
  have hlast : lastProbe w'.2 = (lastProbe seg).or (lastProbe w.2) := by
    rw [hl]
    exact lastOf_append _ _
  refine ⟨hl ▸ h.1.append hclosed, fun hmode hiface => ?_⟩
  rw [hlast]
  cases out with
  | ok st =>
    rw [Mem.applied_ok_status hm.status_lock] at hmode
    rw [hok st rfl hmode]
    rfl
  | error e =>
    have hold := h.2 hmode hiface
    rcases herror e rfl with hnone | haborted
    · rw [hnone, hold]
      rfl
    · rcases htrust hmode hiface seg hl haborted with hnone | hfree
      · rw [hnone, hold]
        rfl
      · rw [hfree]
        rfl

/-- A tick with carrier probes nothing, and starts dnsmasq in mode `Gateway` only. -/
theorem Vouched.linked {m : Mem} {t : Mem × σ × Log CtlSig σ} {w : σ × Log CtlSig σ}
    (h : Vouched m w.2) (hiface : m.status.iface ≠ "")
    (hexec : (tickCarrier m.status.mode m.status.iface m.config).Exec (daemonEnv (liveLog W D))
      (m, w) () t) : Vouched m t.2.2 := by
  refine (wp_iff.mp (wp_within (I := fun t : Mem × σ × Log CtlSig σ => Vouched m t.2.2) ?_
    (within_tickCarrier m.status.mode m.status.iface m.config) h) () t hexec).2
  rintro (f | c) s r u hop hs hE
  · rw [hE.2]
    exact hs
  · cases c with
    | ctl c =>
      obtain ⟨⟨_, hl⟩, -⟩ := hE
      rw [hl]
      have hprobe : Event.probe (⟨c, s.2.1, r⟩ : Event CtlSig σ) = none := by
        cases c with
        | net c => rfl
        | gw c => cases c <;> first | rfl | exact hop.elim
      refine ⟨failClosed_snoc.mpr ⟨hs.1, fun hstart => ?_⟩, fun hmode hi => ?_⟩
      · cases c with
        | net c => cases hstart
        | gw c =>
          cases c with
          | dhcpReloadOrRestart cfg i => exact hs.2 hop.1 hiface
          | _ => cases hstart
      · rw [lastProbe_snoc, hprobe]
        exact hs.2 hmode hi
    | _ => exact hop.elim

/-- A call that neither probes nor starts dnsmasq keeps it. -/
theorem Vouched.quiet {m : Mem} {l : Log CtlSig σ} {e : Event CtlSig σ} (h : Vouched m l)
    (he : CtlCall.Quiet e.op) : Vouched m (l ++ [e]) := by
  refine ⟨failClosed_snoc.mpr ⟨h.1, fun hs => ?_⟩, fun hmode hiface => ?_⟩
  · rw [quiet_start he] at hs
    cases hs
  · rw [lastProbe_snoc, quiet_probe he]
    exact h.2 hmode hiface

theorem Vouched.step {m m' : Mem} {w w' : σ × Log CtlSig σ} {k : StepKind}
    {l : Log ExtSig (σ × Log CtlSig σ)} (hm : m.Settled) (h : Vouched m w.2)
    (hstep : Stepped (liveLog W D) m w k l m' w')
    (htrust : m.status.mode = .gateway → m.status.iface ≠ "" → ∀ seg, w'.2 = w.2 ++ seg →
      aborted seg = true → lastProbe seg = none ∨ lastProbe seg = some (.ok false)) :
    Vouched m' w'.2 := by
  cases hstep with
  | loaded hvalid hload happly =>
    rw [← hload.2] at h htrust
    exact (vouched_of_status h (m.setConfig_status _)).applied (hm.setConfig hvalid) happly htrust
  | rejected _ hload =>
    rw [hload.2]
    exact h
  | reconfigured happly => exact h.applied hm happly htrust
  | unnamed => exact vouched_of_status h (m.record_status _)
  | @linked now w₁ w₂ _ _ seg c d hiface hup hnow hexec _ hm' =>
    -- the tick probes nothing, so the cached mode vouches as before
    have hl : w₂.2 = w.2 ++ [_] := hnow.2.trans hup.2
    have hmode : m'.status.mode = m.status.mode := by
      rw [hm', Mem.record_status, Mem.refresh_status (hm.setDownSince none).status_lock]
      rfl
    have hname : m'.status.iface = m.status.iface := by
      rw [hm', Mem.record_status, Mem.refresh_status (hm.setDownSince none).status_lock]
      rfl
    have hvouched := Vouched.linked (t := (m', w')) (hl ▸ h.quiet trivial) hiface hexec
    exact ⟨hvouched.1, by rw [hmode, hname]; exact hvouched.2⟩
  | @unlinked now w₁ _ _ hdown hnow _ =>
    rw [hnow.2, hdown.2]
    exact vouched_of_status (h.quiet trivial) (m.lose_status _)
  | @reselected now out w₁ w₂ _ _ hdown hnow _ happly =>
    -- the loss leaves the cached mode to the apply that follows
    have hl : w₂.2 = w.2 ++ [_] := hnow.2.trans hdown.2
    have hlost : Vouched (m.lose now) w₂.2 :=
      vouched_of_status (hl ▸ h.quiet trivial) (m.lose_status _)
    refine hlost.applied (hm.lose now) happly fun hmode hiface seg hseg haborted => ?_
    rw [Mem.lose_status] at hmode hiface
    have := htrust hmode hiface (_ :: seg) (by rw [hseg, hl, List.append_assoc]; rfl)
      ((aborted_cons rfl seg).trans haborted)
    rwa [lastProbe_cons rfl] at this

/-- **The daemon fails closed in every run** in which no failed apply leaves a cached `Gateway`
behind a probe that failed or saw an offer.  What the calls do is free (`W`), failures included,
and so is what happens in between (`D`).  `htrust` is asked of every step of the run, and only a
step that begins with `Gateway` cached can miss it. -/
theorem daemon_failClosed (W : Env CtlSig σ) (D : σ → σ → Prop) (s₀ : σ)
    (h : List (Record (σ × Log CtlSig σ))) (s : Mem × σ × Log CtlSig σ)
    (hrun : Run (liveLog W D) (s₀, []) h s) (htrust : ∀ r ∈ h, r.Trusted) :
    FailClosed s.2.2 := by
  have hvouched : (∀ r ∈ h, r.Trusted) → Vouched s.1 s.2.2 := by
    refine hrun.rule (I := fun h m w => (∀ r ∈ h, Record.Trusted r) → Vouched m w.2)
      ?_ ?_ ?_ ?_
    · rintro cfg w₁ out w₂ hload hvalid happly -
      obtain ⟨seg, hl, hseg⟩ := liveLog_apply happly
      obtain rfl : w₂.2 = seg := hl.trans (by rw [hload.2]; rfl)
      obtain ⟨hclosed, hok, -⟩ := apply_failClosed hseg
      refine ⟨hclosed, fun hmode hiface => ?_⟩
      cases out with
      | ok st => exact hok st rfl hmode
      | error e => exact absurd rfl hiface
    · intro h m w w' hI hpaused htrust
      rw [hpaused.drift.2]
      exact hI htrust
    · exact fun h m w t hI htrust => hI htrust
    · intro h m w k l m' w' hm hI hstep htrust
      refine (hI fun r hr => htrust r (List.mem_append_left _ hr)).step hm hstep ?_
      exact htrust ⟨k, (m, w), l, (m', w')⟩ (List.mem_append_right _ (List.mem_singleton_self _))
  exact (hvouched htrust).1

end Run

/-! ## Two runs -/

/-- One linked Ethernet, dnsmasq, and a script of probe answers: the daemon starts, is
told to reconfigure, and ticks. -/
def reconfigured (probes : List (Except Error Bool)) :=
  simulate (ctlHandler Lan.linked.net Dnsmasq.scripted) {} (oneEthernet [], false, probes)
    [.reconfigure, .tick]

theorem trusted_of_not_aborted {r : Record (σ × Log CtlSig σ)}
    (h : aborted (r.after.2.2.drop r.before.2.2.length) = false) : r.Trusted := by
  intro _ _ seg hseg haborted
  rw [hseg, List.drop_left, haborted] at h
  cases h

theorem not_failClosed {l : Log CtlSig σ} (n : Nat)
    (hstart : (l[n]?).any Event.startsDnsmasq = true)
    (hprobe : lastProbe (l.take n) ≠ some (.ok false)) : ¬ FailClosed l := by
  intro h
  cases he : l[n]? with
  | none => simp [he] at hstart
  | some e =>
    obtain ⟨hn, rfl⟩ := List.getElem?_eq_some_iff.mp he
    refine hprobe (h _ l[n] (l.drop (n + 1)) ?_ (by simpa [he] using hstart))
    rw [List.getElem_cons_drop, List.take_append_drop]

/-- Free probes: both applies start dnsmasq after theirs. -/
theorem free_probes_failClosed : FailClosed (reconfigured [.ok false, .ok false]).2.2.2 := by
  refine daemon_failClosed _ Eq _ _ _ (run_simulate _ _ (by decide)) fun r hr => ?_
  refine trusted_of_not_aborted ?_
  revert r
  decide

/-- **A probe that fails open**: the reconfigure stops dnsmasq and aborts at its probe,
and the tick starts it again. -/
theorem reconfigure_fails_open :
    let s₀ : Net × Bool × List (Except Error Bool) :=
      (oneEthernet [], false, [.ok false, .error (.dhcpProbe "bind")])
    let out := reconfigured s₀.2.2
    Run (liveLog (ctlHandler Lan.linked.net Dnsmasq.scripted).graph Eq) (s₀, []) out.1 out.2 ∧
      ¬ FailClosed out.2.2.2 :=
  ⟨run_simulate _ _ (by decide), not_failClosed 27 (by decide) (by decide)⟩

end Micronet

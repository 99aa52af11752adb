import Micronet.LiveDaemon

/-!
# dnsmasq only in gateway mode

Between two steps dnsmasq runs only if the cached mode is `Gateway`, and in the
other modes the status does not report it.  An apply that succeeds establishes it
whatever ran before, and an apply that fails leaves dnsmasq running only if it ran
before; a tick restarts it only in mode `Gateway`.
-/
namespace Micronet
open Interaction Prog

variable {ν : Type} {N : Env NetSig ν}

/-! ## What the server's calls say -/

namespace Dnsmasq
variable {s t : Bool}

@[simp] theorem env_dhcpRunning {r : Bool} :
    env .dhcpRunning s r t ↔ r = t ∧ (t = true → s = true) := by
  constructor
  · rintro ⟨u, hu, rfl, rfl⟩
    exact ⟨rfl, hu⟩
  · rintro ⟨rfl, ht⟩
    exact ⟨r, ht, rfl, rfl⟩

@[simp] theorem env_dhcpStop_ok {u : Unit} : env .dhcpStop s (.ok u) t ↔ t = false := by
  constructor
  · exact fun ⟨_, _, h⟩ => h
  · exact fun h => ⟨s, id, h⟩

@[simp] theorem env_dhcpStop_error {e : Error} :
    env .dhcpStop s (.error e) t ↔ (t = true → s = true) := by
  constructor
  · rintro ⟨u, hu, rfl⟩
    exact hu
  · exact fun ht => ⟨t, ht, rfl⟩

@[simp] theorem env_reload_ok {cfg : Config} {i : String} {u : Unit} :
    env (.dhcpReloadOrRestart cfg i) s (.ok u) t :=
  ⟨s, id, fun h => (nomatch h)⟩

@[simp] theorem env_reload_error {cfg : Config} {i : String} {e : Error} :
    env (.dhcpReloadOrRestart cfg i) s (.error e) t ↔ t = false := by
  constructor
  · exact fun ⟨_, _, h⟩ => h rfl
  · exact fun h => ⟨s, id, fun _ => h⟩

@[simp] theorem env_probe {i : String} {d : Duration} {r : Except Error Bool} :
    env (.probeForeignDhcp i d) s r t ↔ (t = true → s = true) := by
  constructor
  · rintro ⟨u, hu, rfl⟩
    exact hu
  · exact fun ht => ⟨t, ht, rfl⟩

end Dnsmasq

/-! ## One apply -/

/-- What a status says about dnsmasq holds. -/
def Status.Served (st : Status) (running : Bool) : Prop :=
  (running = true → st.mode = .gateway) ∧ (st.mode ≠ .gateway → st.dnsmasqRunning = false)

section Apply
variable (cfg : Config) (k : String) (s : ν × Bool)

theorem wpE_applyClient_served :
    wpE (ctlEnv N Dnsmasq.env) (applyClient cfg k) (fun st t => st.Served t.2)
      (fun _ t => t.2 = true → s.2 = true) s := by
  simp +contextual [-Bool.forall_bool, applyClient, forall_except, Status.Served]

theorem wpE_applyStatic_served (ip : Ipv4Addr) :
    wpE (ctlEnv N Dnsmasq.env) (applyStatic cfg k ip) (fun st t => st.Served t.2)
      (fun _ t => t.2 = true → s.2 = true) s := by
  simp +contextual [-Bool.forall_bool, applyStatic, forall_except, Status.Served]

/-- A restart that fails leaves nothing running. -/
theorem wpE_applyGateway_served :
    wpE (ctlEnv N Dnsmasq.env) (applyGateway cfg k) (fun st t => st.Served t.2)
      (fun _ t => t.2 = true → s.2 = true) s := by
  simp +contextual [-Bool.forall_bool, applyGateway, forall_except, Status.Served]

/-- Nothing is started before the modes. -/
theorem wpE_seekOffer_served :
    wpE (ctlEnv N Dnsmasq.env) (seekOffer cfg k) (fun _ t => t.2 = true → s.2 = true)
      (fun _ t => t.2 = true → s.2 = true) s := by
  unfold seekOffer
  rw [wpE_bind, wpE_lift]
  refine wp_mono (wp_within (A := CtlCall.Isolates k) (K := fun _ => True) (I := fun t => t.2 = s.2)
    ?_ (within_isolateIface (fun _ h => h) trivial) rfl) ?_
  · rintro (c | c) u r t hop hu ⟨-, ht⟩
    · exact ht.trans hu
    · exact hop.elim
  · rintro - ⟨t, g⟩ ⟨-, rfl⟩
    simp +contextual [-Bool.forall_bool, probeOn, forall_except]

theorem wpE_applyOffer_served (foreign : Bool) :
    wpE (ctlEnv N Dnsmasq.env) (applyOffer cfg k foreign) (fun st t => st.Served t.2)
      (fun _ t => t.2 = true → s.2 = true) s := by
  cases foreign with
  | true => exact wpE_applyClient_served cfg k s
  | false =>
    show wpE _ (applyLocal cfg k) _ _ _
    unfold applyLocal
    rw [wpE_bind]
    refine wpE_mono (Q := fun _ t => t.2 = s.2) (R := fun _ t => t.2 = s.2) ?_ ?_ ?_
    · simp [assignStatic, forall_except]
    · rintro - ⟨t, g⟩ rfl
      rw [wpE_bind]
      refine wpE_mono (Q := fun _ t => t.2 = s.2) (R := fun _ _ => False) ?_ ?_ fun _ _ h => h.elim
      · simp [askGateway]
      · rintro b ⟨t, g⟩ rfl
        cases b with
        | true => exact wpE_applyStatic_served cfg k _ _
        | false => exact wpE_applyGateway_served cfg k _
    · rintro e t ht
      exact fun h => ht ▸ h

theorem wpE_applyOn_served :
    wpE (ctlEnv N Dnsmasq.env) (applyOn cfg k) (fun st t => st.Served t.2)
      (fun _ t => t.2 = true → s.2 = true) s := by
  unfold applyOn
  rw [wpE_bind]
  refine wpE_mono (wpE_seekOffer_served cfg k s) ?_ fun _ _ h => h
  intro foreign t ht
  exact wpE_mono (wpE_applyOffer_served cfg k t foreign) (fun _ _ h => h)
    fun _ u hu hrun => ht (hu hrun)

/-- **One apply**: what it reports of dnsmasq holds, and when it fails dnsmasq runs only
if it did before. -/
theorem wpE_applyWith_served :
    wpE (ctlEnv N Dnsmasq.env) (applyWith cfg) (fun st t => st.Served t.2)
      (fun _ t => t.2 = true → s.2 = true) s := by
  rw [applyWith_eq, wpE_bind, wpE_mk, wp_pure]
  cases cfg.validate with
  | error e => exact id
  | ok u =>
    rw [post_ok, wpE_bind, wpE_mk, wp_net]
    intro r t _
    cases r with
    | ok k => exact wpE_applyOn_served cfg k (t, s.2)
    | error e => exact id

end Apply

/-! ## Runs -/

/-- dnsmasq may die while the daemon waits; nobody starts it. -/
def MayDie (s t : ν × Bool) : Prop := t.2 = true → s.2 = true

section Run
variable {m : Mem}

/-- An apply keeps what the cached status says of dnsmasq. -/
theorem served_applied (hm : m.Settled) {cfg : Config} {out : Except Error Status}
    {w w' : ν × Bool} (hw : m.status.Served w.2)
    (hX : liveExt (ctlEnv N Dnsmasq.env) MayDie (.apply cfg) w out w') :
    (m.applied out).status.Served w'.2 := by
  have hpost := wpE_iff.mp (wpE_applyWith_served cfg w) out w' hX
  cases out with
  | ok st =>
    rw [Mem.applied_ok_status hm.status_lock]
    exact hpost
  | error e => exact ⟨fun hrun => hw.1 (hpost hrun), hw.2⟩

/-- The calls of a tick start dnsmasq in mode `Gateway` only. -/
theorem wp_heal_served {α : Type} {mode : Mode} {iface : String} {cfg : Config} {p : DaemonM α}
    {K : α → Prop} {w : ν × Bool} (hp : p.Within (HealCall mode iface cfg) K)
    (hw : w.2 = true → mode = .gateway) :
    wp (daemonEnv (liveExt (ctlEnv N Dnsmasq.env) MayDie)) p
      (fun a t => K a ∧ t.1 = m ∧ (t.2.2 = true → mode = .gateway)) (m, w) := by
  refine wp_within (I := fun t : Mem × ν × Bool => t.1 = m ∧ (t.2.2 = true → mode = .gateway))
    ?_ hp ⟨rfl, hw⟩
  rintro (f | c) s r t hop ⟨hm, hs⟩ hE
  · exact hop.elim
  · refine ⟨hE.2.trans hm, fun hrun => ?_⟩
    cases c with
    | ctl c =>
      cases c with
      | net c => exact hs (hE.1.2 ▸ hrun)
      | gw c =>
        cases c with
        | dhcpRunning => exact hs ((Dnsmasq.env_dhcpRunning.mp hE.1.1).2 hrun)
        | dhcpReloadOrRestart cfg i => exact hop.1
        | _ => exact hop.elim
    | _ => exact hop.elim

/-- A tick with carrier reports dnsmasq as it finds it after the restart. -/
theorem wp_tickCarrier_served {w : ν × Bool} (hm : m.Settled) (hw : m.status.Served w.2) :
    wp (daemonEnv (liveExt (ctlEnv N Dnsmasq.env) MayDie))
      (tickCarrier m.status.mode m.status.iface m.config)
      (fun _ t => t.1.status.Served t.2.2) (m, w) := by
  simp only [tickCarrier, modifyMem, wp_bind, wp_mem, wp_ret, wp_pure, wp_refreshLiveStatus]
  intro c₁ w₁ hc₁ d₁ w₂ hd₁
  have hw₂ : w₂.2 = true → m.status.mode = .gateway := by
    intro hrun
    refine hw.1 (hc₁.2 ▸ (Dnsmasq.env_dhcpRunning.mp hd₁.1).2 hrun)
  refine wp_mono (wp_heal_served (within_maybeSelfHeal _ _ _) hw₂) ?_
  rintro - ⟨m₃, w₃⟩ ⟨-, rfl, hw₃⟩ c₄ w₄ hc₄ d₅ w₅ hd₅
  obtain ⟨hd, hw₅⟩ := Dnsmasq.env_dhcpRunning.mp hd₅.1
  have hrun₅ : w₅.2 = true → m.status.mode = .gateway := fun hrun => hw₃ (hc₄.2 ▸ hw₅ hrun)
  refine wp_ext.mpr fun c₆ w₆ hc₆ => wp_ret.mpr ?_
  refine wp_mono (wp_heal_served (within_modeProcRunning _ _ m.config (K := fun _ => True)
    fun _ => trivial) fun hrun => hrun₅ (hc₆.2 ▸ hrun)) ?_
  rintro b ⟨m₇, w₇⟩ ⟨-, rfl, hw₇⟩
  rw [wp_recordVerdict, Mem.refresh_refresh, Mem.record_status,
    Mem.refresh_status (hm.setDownSince none).status_lock]
  refine ⟨hw₇, fun hmode => ?_⟩
  show d₅ = false
  rw [hd]
  exact Bool.eq_false_iff.mpr fun hrun => hmode (hrun₅ hrun)

theorem served_step {k : StepKind} {m' : Mem} {w w' : ν × Bool} {l : Log ExtSig (ν × Bool)}
    (hm : m.Settled) (hw : m.status.Served w.2)
    (hstep : Stepped (liveExt (ctlEnv N Dnsmasq.env) MayDie) m w k l m' w') :
    m'.status.Served w'.2 := by
  cases hstep with
  | loaded hvalid hload happly =>
    refine served_applied (hm.setConfig hvalid) ?_ happly
    exact ⟨fun hrun => hw.1 (hload hrun), hw.2⟩
  | rejected _ hload => exact ⟨fun hrun => hw.1 (hload hrun), hw.2⟩
  | reconfigured happly => exact served_applied hm hw happly
  | unnamed => exact (m.record_status _).symm ▸ hw
  | linked _ hup hnow hexec _ _ =>
    refine wp_iff.mp (wp_tickCarrier_served hm ?_) _ _ hexec
    exact ⟨fun hrun => hw.1 (hup.2 ▸ hnow hrun), hw.2⟩
  | unlinked _ hdown hnow _ =>
    rw [m.lose_status]
    exact ⟨fun hrun => hw.1 (hdown.2 ▸ hnow hrun), hw.2⟩
  | reselected _ hdown hnow _ happly =>
    refine served_applied (hm.lose _) ?_ happly
    rw [m.lose_status]
    exact ⟨fun hrun => hw.1 (hdown.2 ▸ hnow hrun), hw.2⟩

end Run

/-- **dnsmasq only in gateway mode**: between any two steps of any run, dnsmasq runs only with the
cached mode `Gateway`, and is not reported in the other modes.  The network is free (`N`); dnsmasq
may run at the start, may be stopped or fail to start, and may die while the daemon waits. -/
theorem dnsmasq_only_in_gateway (N : Env NetSig ν) (w₀ : ν × Bool)
    (h : List (Record (ν × Bool))) (m : Mem) (w : ν × Bool)
    (hrun : Run (liveExt (ctlEnv N Dnsmasq.env) MayDie) w₀ h (m, w)) :
    (w.2 = true → m.status.mode = .gateway) ∧
      (m.status.mode = .client ∨ m.status.mode = .static → m.status.dnsmasqRunning = false) := by
  have hserved : m.status.Served w.2 := by
    refine hrun.invariant (I := fun m w => m.status.Served w.2) ?_ ?_ ?_ ?_
    · intro cfg w₁ out w₂ _ _ happly
      have hpost := wpE_iff.mp (wpE_applyWith_served cfg w₁) out w₂ happly
      cases out with
      | ok st => exact hpost
      | error e => exact ⟨fun _ => rfl, fun _ => rfl⟩
    · intro m w w' hw hpaused
      exact ⟨fun hrun => hw.1 (hpaused.drift hrun), hw.2⟩
    · exact fun m w t hw => hw
    · exact fun m w k l m' w' => served_step
  refine ⟨hserved.1, fun hmode => hserved.2 ?_⟩
  rcases hmode with hmode | hmode <;> simp [hmode]

/-- A foreign server that offers a lease, and a dnsmasq left over from before. -/
def leftoverDnsmasq : Mem × Net × Bool :=
  let H := liveHandler (ctlHandler Lan.linked.net (Dnsmasq.handler (.ok true))) (.ok {})
  final H (boots H (oneEthernet [], true)).2 [.tick, .reconfigure]

theorem leftover_dnsmasq_stopped :
    (leftoverDnsmasq.2.2 = true → leftoverDnsmasq.1.status.mode = .gateway) ∧
      (leftoverDnsmasq.1.status.mode = .client ∨ leftoverDnsmasq.1.status.mode = .static →
        leftoverDnsmasq.1.status.dnsmasqRunning = false) :=
  dnsmasq_only_in_gateway (Net.env fun _ => False) (oneEthernet [], true) _ _ _
    (run_of_handler (liveHandler_implements (ctlHandler_implements (Lan.linked.net_implements _)
      (Dnsmasq.handler_implements _)) (fun _ => id) _) (by decide) _)

end Micronet

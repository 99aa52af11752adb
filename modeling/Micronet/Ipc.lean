import Micronet.LiveDaemon

/-!
# The control socket during an apply

The control socket is served on a thread of its own, so a status request can meet the
daemon in any state a step passes through.  The reply holds both locks while it is
built: it is a function of one such state (`statusReply`).  While an apply is in
progress the reply carries the health that was stored before, and only the tick has
reset it before it applies.
-/
namespace Micronet
open Interaction Prog

variable {ω : Type} {X : Env ExtSig ω}

inductive Response
  | status (mode : Mode) (iface : String) (cidr : Option String)
      (foreignDhcp gatewayReachable dnsmasqRunning healthy : Bool)
      (unhealthyReason : Option String)
  | info (version buildCommit tagCommit buildTime hostname : String)
  | ok
  | error (message : String)
deriving DecidableEq, Repr

/-- `Response::from_status`. -/
def Response.fromStatus (s : Status) (health : Health) : Response :=
  .status s.mode s.iface (s.cidr.map Ipv4Net.display) s.foreignDhcp s.gatewayReachable
    s.dnsmasqRunning health.healthy health.reason

/-- `StatusCmd::execute`, up to sending the reply. -/
def statusReply (shared : Shared) : Response :=
  match shared.status.read, shared.health.read with
  | some s, some h => .fromStatus s h
  | _, _ => .error "status lock poisoned"

/-- What `check_liveness` makes of a reply. -/
def Response.alive : Response → Bool
  | .status _ _ _ _ _ _ healthy _ => healthy
  | _ => false

theorem alive_statusReply {shared : Shared} (hs : shared.status.poisoned = false)
    (hh : shared.health.poisoned = false) :
    (statusReply shared).alive = shared.health.value.healthy := by
  simp [statusReply, RwLock.read, hs, hh, Response.fromStatus, Response.alive]

/-! ## The states with an apply in progress -/

/-- The call leaves the flag alone. -/
def KeepsFlag : DaemonCall → Prop
  | .mem f => ∀ m, (f m).shared.applying = m.shared.applying
  | .ext _ => True

section Within
variable {K : Unit → Prop}

theorem within_setHealth_flag (healthy : Bool) (reason : Option String) (hK : K ()) :
    (setHealth healthy reason).Within KeepsFlag K := ⟨fun _ => rfl, fun _ => hK⟩

theorem within_recordVerdict_flag (v : Verdict) :
    (recordVerdict v).Within KeepsFlag fun _ => True := by
  cases v with
  | healthy =>
    exact within_bind.mpr ⟨fun _ => rfl, fun _ => within_setHealth_flag true none trivial⟩
  | unhealthy reason =>
    simp only [recordVerdict, modifyMem, readMem, within_bind]
    refine ⟨fun _ => rfl, fun _ => ⟨fun _ => rfl, fun m => within_ite.mpr ?_⟩⟩
    exact ⟨fun _ => within_setHealth_flag false _ trivial, fun _ => trivial⟩

theorem within_refreshLiveStatus_flag (i : String) (hK : K ()) :
    (refreshLiveStatus i).Within KeepsFlag K := by
  simp only [refreshLiveStatus, modifyMem, within_bind]
  exact ⟨trivial, fun _ => ⟨trivial, fun _ => ⟨fun _ => rfl, fun _ => hK⟩⟩⟩

theorem within_tickCarrier_flag (mode : Mode) (iface : String) (cfg : Config) :
    (tickCarrier mode iface cfg).Within KeepsFlag fun _ => True := by
  have hheal : ∀ op, HealCall mode iface cfg op → KeepsFlag op := by
    intro op hop
    cases op with
    | mem f => exact hop.elim
    | ext c => trivial
  simp only [tickCarrier, modifyMem, within_bind]
  refine ⟨fun _ => rfl, fun _ => within_refreshLiveStatus_flag _ ?_⟩
  refine within_mono hheal (fun _ _ => ?_) (within_maybeSelfHeal mode iface cfg)
  refine within_refreshLiveStatus_flag _ ⟨trivial, fun c => within_ret.mpr ?_⟩
  refine within_mono hheal (fun b _ => ?_)
    (within_modeProcRunning mode iface cfg (K := fun _ => True) fun _ => trivial)
  exact within_recordVerdict_flag _

end Within

section Steps
variable {m : Mem} {w : ω}

/-- Calls that leave the flag alone pass through no apply. -/
theorem throughout_idle {α : Type} {p : DaemonM α} {K : α → Prop} (hp : p.Within KeepsFlag K)
    (hidle : m.shared.applying = false) :
    Throughout (daemonEnv X) p (fun t => t.1.shared.applying = false) (m, w) := by
  refine throughout_within ?_ hp hidle
  rintro (f | c) s r t hop hs hE
  · rw [hE.2]
    exact (hop s.1).trans hs
  · rw [hE.2]
    exact hs

/-- So nothing is to be said of their states. -/
theorem throughout_of_idle {α : Type} {p : DaemonM α} {K : α → Prop} {P : Mem × ω → Prop}
    (hp : p.Within KeepsFlag K) (hidle : m.shared.applying = false) :
    Throughout (daemonEnv X) p (fun t => t.1.shared.applying = true → P t) (m, w) := by
  intro t ht happ
  rw [throughout_idle hp hidle t ht] at happ
  cases happ

theorem within_adoptStatus_flag (s : Status) :
    (adoptStatus s).Within KeepsFlag fun _ => True := by
  simp only [adoptStatus, storeStatus, modifyMem, within_bind]
  refine ⟨fun _ => rfl, fun _ => ⟨fun _ => rfl, fun _ => ⟨fun _ => rfl, fun _ => ?_⟩⟩⟩
  exact within_setHealth_flag true none trivial

/-- The states of an apply with the flag set have the memory of its begin. -/
theorem throughout_applyAndAdopt (hidle : m.shared.applying = false) (cfg : Config) :
    Throughout (daemonEnv X) (applyAndAdopt cfg)
      (fun t => t.1.shared.applying = true → t.1 = m.setApplying true) (m, w) := by
  simp only [applyAndAdopt, applyNow, modifyMem, throughout_bind, throughout_mem, throughout_ext,
    throughout_ret, throughout_pure, wp_bind, wp_mem, wp_ext, wp_ret, wp_pure, hidle]
  refine ⟨by simp [Mem.setApplying], fun r w' _ => ?_⟩
  cases r with
  | ok s => exact throughout_of_idle (within_adoptStatus_flag s) rfl
  | error e => exact throughout_of_idle (K := fun _ => True) (p := Pure.pure ()) trivial rfl

/-- What a status request meets while an apply of the step is in progress. -/
def HealthInApply (k : StepKind) (m : Mem) (t : Mem × ω) : Prop :=
  t.1.shared.status.poisoned = false ∧ t.1.shared.health.poisoned = false ∧
    (t.1.health.healthy = true ↔ k = .tick ∨ m.health.healthy = true)

/-- An apply that begins with the memory `m'`. -/
theorem throughout_apply_health {k : StepKind} {m' : Mem} (hm' : m'.Settled)
    (hh : m'.health.healthy = true ↔ k = .tick ∨ m.health.healthy = true) (cfg : Config) :
    Throughout (daemonEnv X) (applyAndAdopt cfg)
      (fun t => t.1.shared.applying = true → HealthInApply k m t) (m', w) := by
  intro t ht happ
  have htm := throughout_applyAndAdopt hm'.idle cfg t ht happ
  unfold HealthInApply
  rw [htm]
  exact ⟨hm'.status_lock, hm'.health_lock, hh⟩

/-- The call is one to the outside. -/
def Asks : DaemonCall → Prop
  | .mem _ => False
  | .ext _ => True

theorem asks_keepsFlag (op : DaemonCall) (h : Asks op) : KeepsFlag op := by
  cases op with
  | mem f => exact h.elim
  | ext c => trivial

theorem withinE_load : WithinE Asks (fun cfg => cfg.Valid) load := by
  unfold load
  simp only [withinE_bind, withinE_mk, withinE_pure, within_op, within_ret, within_pure]
  exact ⟨trivial, fun _ cfg _ _ hvalid => hvalid⟩

theorem throughout_onConfigReload (hm : m.Settled) :
    Throughout (daemonEnv X) onConfigReload
      (fun t => t.1.shared.applying = true → HealthInApply .reload m t) (m, w) := by
  unfold onConfigReload
  refine throughout_bind.mpr ⟨throughout_of_idle (within_mono asks_keepsFlag (fun _ h => h)
    withinE_load) hm.idle, ?_⟩
  · refine wp_mono (wp_within (I := fun t : Mem × ω => t.1 = m) ?_ withinE_load rfl) ?_
    · rintro (f | c) s r t hop hs hE
      · exact hop.elim
      · exact hE.2.trans hs
    rintro r ⟨m₁, w₁⟩ ⟨hr, rfl⟩
    cases r with
    | error e => exact throughout_of_idle (K := fun _ => True) (p := Pure.pure ()) trivial hm.idle
    | ok cfg =>
      have hset := hm.setConfig (hr cfg rfl)
      refine throughout_bind.mpr ⟨?_, wp_mem.mpr (wp_ret.mpr ?_)⟩
      · exact throughout_of_idle (K := fun _ => True) ⟨fun _ => rfl, fun _ => trivial⟩ hm.idle
      · rw [if_neg (by rw [hm.config_lock]; decide)]
        exact throughout_apply_health hset (by simp) cfg

theorem throughout_readMem {α : Type} {f : Mem → DaemonM α} {P : Mem × ω → Prop}
    (hidle : m.shared.applying = false)
    (h : Throughout (daemonEnv X) (f m) (fun t => t.1.shared.applying = true → P t) (m, w)) :
    Throughout (daemonEnv X) (readMem >>= f)
      (fun t => t.1.shared.applying = true → P t) (m, w) :=
  throughout_bind.mpr ⟨throughout_of_idle (K := fun _ => True) ⟨fun _ => rfl, fun _ => trivial⟩
    hidle, wp_mem.mpr (wp_ret.mpr h)⟩

theorem throughout_modifyMem {α : Type} {g : Mem → Mem} {f : Unit → DaemonM α}
    {P : Mem × ω → Prop} (hg : ∀ m, (g m).shared.applying = m.shared.applying)
    (hidle : m.shared.applying = false)
    (h : Throughout (daemonEnv X) (f ()) (fun t => t.1.shared.applying = true → P t) (g m, w)) :
    Throughout (daemonEnv X) (modifyMem g >>= f)
      (fun t => t.1.shared.applying = true → P t) (m, w) :=
  throughout_bind.mpr ⟨throughout_of_idle (K := fun _ => True) ⟨hg, fun _ => trivial⟩ hidle,
    wp_bind.mpr (wp_mem.mpr (wp_ret.mpr h))⟩

theorem throughout_onReconfigure (hm : m.Settled) :
    Throughout (daemonEnv X) onReconfigure
      (fun t => t.1.shared.applying = true → HealthInApply .reconfigure m t) (m, w) := by
  unfold onReconfigure
  refine throughout_readMem hm.idle ?_
  rw [RwLock.read, hm.config_lock]
  exact throughout_apply_health hm (by simp) _

/-- The tick resets the health before it applies. -/
theorem throughout_tickNoCarrier (hm : m.Settled) (cfg : Config) (now : Instant) :
    Throughout (daemonEnv X) (tickNoCarrier cfg now)
      (fun t => t.1.shared.applying = true → HealthInApply .tick m t) (m, w) := by
  have hlost := hm.lose now
  have hkeep : ∀ m : Mem, (if m.link.downSince.isNone then m.setDownSince (some now)
      else m).shared.applying = m.shared.applying := by
    intro m
    split <;> rfl
  unfold tickNoCarrier
  refine throughout_modifyMem hkeep hm.idle ?_
  refine throughout_modifyMem (fun _ => rfl) ((hkeep m).trans hm.idle) ?_
  refine throughout_modifyMem (fun _ => rfl) ((hkeep m).trans hm.idle) ?_
  refine throughout_readMem hlost.idle ?_
  refine throughout_ite.mpr ⟨fun _ => ?_, fun _ => ?_⟩
  · refine throughout_apply_health hlost ?_ cfg
    simp [hm.lose_health now, Health.ok]
  · exact throughout_of_idle (K := fun _ => True) (p := Pure.pure ()) trivial hlost.idle

theorem throughout_tick (hm : m.Settled) :
    Throughout (daemonEnv X) tick
      (fun t => t.1.shared.applying = true → HealthInApply .tick m t) (m, w) := by
  unfold tick
  refine throughout_readMem hm.idle ?_
  rw [if_neg (by rw [hm.idle]; decide)]
  refine throughout_readMem hm.idle ?_
  rw [RwLock.read, hm.status_lock]
  refine throughout_ite.mpr ⟨fun _ => ?_, fun _ => ?_⟩
  · exact throughout_of_idle (within_recordVerdict_flag _) hm.idle
  refine throughout_readMem hm.idle ?_
  rw [RwLock.read, hm.config_lock]
  unfold tickLink
  refine throughout_bind.mpr ⟨throughout_of_idle (K := fun _ => True) ⟨trivial, fun _ => trivial⟩
    hm.idle, wp_ext.mpr fun carrier w₁ _ => wp_ret.mpr ?_⟩
  refine throughout_bind.mpr ⟨throughout_of_idle (K := fun _ => True) ⟨trivial, fun _ => trivial⟩
    hm.idle, wp_ext.mpr fun now w₂ _ => wp_ret.mpr ?_⟩
  refine throughout_ite.mpr ⟨fun _ => ?_, fun _ => throughout_tickNoCarrier hm _ now⟩
  exact throughout_of_idle (within_tickCarrier_flag _ _ _) hm.idle

theorem throughout_step (hm : m.Settled) (k : StepKind) :
    Throughout (daemonEnv X) k.prog
      (fun t => t.1.shared.applying = true → HealthInApply k m t) (m, w) := by
  cases k with
  | reload => exact throughout_onConfigReload hm
  | reconfigure => exact throughout_onReconfigure hm
  | tick => exact throughout_tick hm

end Steps

/-- **What a liveness check learns during an apply**: that the daemon is alive, exactly if
the apply is that of a re-selecting tick or the stored health was good before the step. -/
theorem alive_while_applying_iff (X : Env ExtSig ω) (w₀ : ω) (h : List (Record ω))
    (s : Mem × ω) (hrun : Run X w₀ h s) (k : StepKind) (t : Mem × ω)
    (hvisit : k.prog.Visits (daemonEnv X) s t) (happ : t.1.shared.applying = true) :
    (statusReply t.1.shared).alive = true ↔ k = .tick ∨ s.1.health.healthy = true := by
  obtain ⟨hs, hh, hiff⟩ := throughout_step hrun.settled k t hvisit happ
  rw [alive_statusReply hs hh]
  exact hiff

/-! ## A reconfigure while unhealthy -/

/-- A reconfigure passes through the state in which its apply begins. -/
theorem reconfigure_visits {m : Mem} (hm : m.Settled) (w : ω) :
    StepKind.reconfigure.prog.Visits (daemonEnv X) (m, w) (m.setApplying true, w) := by
  refine visits_bind.mpr (Or.inr ⟨m, (m, w), ⟨m, (m, w), ⟨rfl, rfl⟩, rfl, rfl⟩, ?_⟩)
  rw [RwLock.read, hm.config_lock]
  -- the flag is set, and the apply not yet called
  refine visits_bind.mpr (Or.inl (visits_bind.mpr (Or.inr ⟨(), (m.setApplying true, w), ?_, ?_⟩)))
  · exact ⟨m, (m.setApplying true, w), ⟨rfl, rfl⟩, rfl, rfl⟩
  · exact Visits.start _ _

/-- Right after the start the check finds the daemon alive. -/
theorem first_reconfigure_alive :
    (statusReply (noEthernetStart.1.setApplying true).shared).alive = true := by
  have hrun := run_noEthernet []
  have halive := alive_while_applying_iff _ _ _ _ hrun .reconfigure (_, _)
    (reconfigure_visits hrun.settled noEthernetStart.2) rfl
  exact halive.mpr (Or.inr (by decide))

/-- After three ticks without an interface the apply of a reconfigure is reported as
unhealthy. -/
theorem reconfigure_reported_unhealthy :
    let s := final noEthernet noEthernetStart [.tick, .tick, .tick]
    let t := (s.1.setApplying true, s.2)
    Run (liveExt noEthernetCtl.graph Eq) ({ oneEthernet [] with ethernets := [] }, false)
        (records noEthernet noEthernetStart [.tick, .tick, .tick]) s ∧
      StepKind.reconfigure.prog.Visits (daemonEnv (liveExt noEthernetCtl.graph Eq)) s t ∧
      t.1.shared.applying = true ∧ (statusReply t.1.shared).alive = false :=
  have hrun := run_noEthernet [.tick, .tick, .tick]
  ⟨hrun, reconfigure_visits hrun.settled _, rfl, by decide⟩

end Micronet

import Micronet.Weakest
import Micronet.Daemon

/-!
# The steps of the daemon

Between two steps of the loop no apply is in progress, no lock is poisoned and the
shared configuration is valid (`Mem.Settled`).  From there each step is described
once, over any outside: by what it asks, and by the pure functions of the memory it
leaves (`Mem.applied`, `Mem.lose`, `Mem.record`).
-/
namespace Micronet
open Interaction Prog

variable {ω : Type} {X : Env ExtSig ω}

/-- The daemon's memory beside an outside. -/
def daemonEnv (X : Env ExtSig ω) : Env DaemonSig (Mem × ω)
  | .mem f, s, r, t => r = s.1 ∧ t = (f s.1, s.2)
  | .ext c, s, r, t => X c s.2 r t.2 ∧ t.1 = s.1

section Calls
variable {α : Type} {Q : α → Mem × ω → Prop} {s : Mem × ω}

@[simp high] theorem wp_mem {f : Mem → Mem} {k : Mem → Prog DaemonSig α} :
    wp (daemonEnv X) (.call (.mem f) k) Q s ↔ wp (daemonEnv X) (k s.1) Q (f s.1, s.2) := by
  constructor
  · exact fun h => h s.1 _ ⟨rfl, rfl⟩
  · intro h r t ht
    obtain ⟨rfl, rfl⟩ := ht
    exact h

@[simp high] theorem wp_ext {c : ExtCall} {k : c.Ret → Prog DaemonSig α} :
    wp (daemonEnv X) (.call (.ext c) k) Q s ↔
      ∀ r w, X c s.2 r w → wp (daemonEnv X) (k r) Q (s.1, w) := by
  constructor
  · exact fun h r w hX => h r (s.1, w) ⟨hX, rfl⟩
  · intro h r t ht
    obtain ⟨t, w⟩ := t
    obtain ⟨hX, rfl⟩ := ht
    exact h r w hX

variable {P : Mem × ω → Prop}

@[simp high] theorem throughout_mem {f : Mem → Mem} {k : Mem → Prog DaemonSig α} :
    Throughout (daemonEnv X) (.call (.mem f) k) P s ↔
      P s ∧ Throughout (daemonEnv X) (k s.1) P (f s.1, s.2) := by
  refine throughout_op.trans (and_congr_right fun _ => ?_)
  constructor
  · exact fun h => h s.1 _ ⟨rfl, rfl⟩
  · intro h r t ht
    obtain ⟨rfl, rfl⟩ := ht
    exact h

@[simp high] theorem throughout_ext {c : ExtCall} {k : c.Ret → Prog DaemonSig α} :
    Throughout (daemonEnv X) (.call (.ext c) k) P s ↔
      P s ∧ ∀ r w, X c s.2 r w → Throughout (daemonEnv X) (k r) P (s.1, w) := by
  refine throughout_op.trans (and_congr_right fun _ => ?_)
  constructor
  · exact fun h r w hX => h r (s.1, w) ⟨hX, rfl⟩
  · intro h r t ht
    obtain ⟨t, w⟩ := t
    obtain ⟨hX, rfl⟩ := ht
    exact h r w hX

end Calls

/-! ## What the functions do to the memory -/

namespace Mem

abbrev config (m : Mem) : Config := m.shared.config.value
abbrev status (m : Mem) : Status := m.shared.status.value
abbrev health (m : Mem) : Health := m.shared.health.value

/-- `setHealth`. -/
def noteHealth (healthy : Bool) (reason : Option String) (m : Mem) : Mem :=
  m.modifyHealth fun h =>
    if h.healthy = healthy ∧ h.reason = reason then h
    else if healthy then .ok
    else ⟨false, reason⟩

/-- `recordVerdict`. -/
def record : Verdict → Mem → Mem
  | .healthy, m => (m.setStreak 0).noteHealth true none
  | .unhealthy reason, m =>
    let streak := saturatingSucc m.failStreak
    if shouldReportUnhealthy streak then (m.setStreak streak).noteHealth false (some reason)
    else m.setStreak streak

/-- `adoptStatus`. -/
def adopt (s : Status) (m : Mem) : Mem :=
  (((m.setDownSince none).modifyStatus fun _ => s).setStreak 0).noteHealth true none

/-- `applyAndAdopt`, by the answer of the apply. -/
def applied (r : Except Error Status) (m : Mem) : Mem :=
  match r with
  | .ok s => (m.setApplying false).adopt s
  | .error _ => m.setApplying false

/-- `refreshLiveStatus`, by the answers read. -/
def refresh (cidr : Option Ipv4Net) (dns : Bool) (m : Mem) : Mem :=
  m.modifyStatus fun st => { st with cidr := cidr, dnsmasqRunning := dns }

/-- A tick without carrier at `now`, before the timer is asked. -/
def lose (now : Instant) (m : Mem) : Mem :=
  ((if m.link.downSince.isNone then m.setDownSince (some now) else m).setStreak 0).noteHealth true
    none

end Mem

section Functions
variable {Q : Unit → Mem × ω → Prop} {s : Mem × ω}

@[simp] theorem wp_setHealth {healthy : Bool} {reason : Option String} :
    wp (daemonEnv X) (setHealth healthy reason) Q s ↔
      Q () (s.1.noteHealth healthy reason, s.2) := by
  simp [setHealth, modifyMem, Mem.noteHealth]

@[simp] theorem wp_recordVerdict {v : Verdict} :
    wp (daemonEnv X) (recordVerdict v) Q s ↔ Q () (s.1.record v, s.2) := by
  cases v with
  | healthy => simp [recordVerdict, modifyMem, Mem.record]
  | unhealthy reason =>
    simp only [recordVerdict, modifyMem, readMem, Mem.record]
    simp
    split <;> simp_all [Mem.setStreak]

@[simp] theorem wp_applyAndAdopt {cfg : Config} :
    wp (daemonEnv X) (applyAndAdopt cfg) Q s ↔
      ∀ r w, X (.apply cfg) s.2 r w → Q () (s.1.applied r, w) := by
  simp only [applyAndAdopt, applyNow, adoptStatus, storeStatus, modifyMem]
  simp only [wp_bind, wp_mem, wp_ext, wp_ret, wp_pure]
  refine forall_congr' fun r => forall_congr' fun w => imp_congr_right fun _ => ?_
  cases r with
  | ok st => simp [Mem.applied, Mem.adopt, Mem.setApplying]
  | error e => exact Iff.rfl

@[simp] theorem wp_refreshLiveStatus {iface : String} :
    wp (daemonEnv X) (refreshLiveStatus iface) Q s ↔
      ∀ c w, X (.ctl (.net (.ifaceIpv4Cidr iface))) s.2 c w →
      ∀ d w', X (.ctl (.gw .dhcpRunning)) w d w' → Q () (s.1.refresh c d, w') := by
  simp [-Bool.forall_bool, refreshLiveStatus, modifyMem, Mem.refresh]

theorem wp_tickNoCarrier {cfg : Config} {now : Instant} :
    wp (daemonEnv X) (tickNoCarrier cfg now) Q s ↔
      (shouldReselect false (s.1.lose now).link.downSince now (.fromSecs cfg.linkRetrySecs) = true →
        ∀ r w, X (.apply cfg) s.2 r w → Q () ((s.1.lose now).applied r, w)) ∧
      (¬ shouldReselect false (s.1.lose now).link.downSince now
          (.fromSecs cfg.linkRetrySecs) = true →
        Q () (s.1.lose now, s.2)) := by
  simp only [tickNoCarrier, modifyMem, readMem, wp_bind, wp_mem, wp_setHealth, wp_ret, wp_pure,
    wp_ite, wp_applyAndAdopt]
  exact Iff.rfl

theorem wp_tickLink {mode : Mode} {iface : String} {cfg : Config} :
    wp (daemonEnv X) (tickLink mode iface cfg) Q s ↔
      ∀ b w, X (.ctl (.net (.carrierUp iface))) s.2 b w → ∀ now w', X .now w now w' →
        (b = true → wp (daemonEnv X) (tickCarrier mode iface cfg) Q (s.1, w')) ∧
        (¬ b = true → wp (daemonEnv X) (tickNoCarrier cfg now) Q (s.1, w')) := by
  simp only [tickLink, wp_bind, wp_ext, wp_ret, wp_ite]

end Functions

/-! ## Between two steps -/

/-- What holds of the memory between two steps. -/
structure Mem.Settled (m : Mem) : Prop where
  /-- No apply is under way. -/
  idle : m.shared.applying = false
  /-- No lock is poisoned. -/
  config_lock : m.shared.config.poisoned = false
  status_lock : m.shared.status.poisoned = false
  health_lock : m.shared.health.poisoned = false
  /-- The configuration in force passed its validation. -/
  valid : m.config.Valid

namespace RwLock
variable {α : Type} {l : RwLock α} {f : α → α}

@[simp] theorem modify_poisoned : (l.modify f).poisoned = l.poisoned := by
  unfold modify
  split <;> simp_all

theorem modify_modify (g : α → α) : (l.modify f).modify g = l.modify fun a => g (f a) := by
  unfold modify
  split <;> simp_all

theorem modify_value (h : l.poisoned = false) : (l.modify f).value = f l.value := by
  simp [modify, h]

end RwLock

namespace Mem
variable {m : Mem}

@[simp] theorem noteHealth_status (b : Bool) (r : Option String) :
    (m.noteHealth b r).status = m.status := rfl

@[simp] theorem noteHealth_config (b : Bool) (r : Option String) :
    (m.noteHealth b r).config = m.config := rfl

@[simp] theorem noteHealth_link (b : Bool) (r : Option String) :
    (m.noteHealth b r).link = m.link := rfl

@[simp] theorem noteHealth_failStreak (b : Bool) (r : Option String) :
    (m.noteHealth b r).failStreak = m.failStreak := rfl

theorem noteHealth_ok (h : m.shared.health.poisoned = false) :
    (m.noteHealth true none).health = .ok := by
  unfold noteHealth modifyHealth health
  rw [RwLock.modify_value h]
  split
  · rename_i hsame
    cases hv : m.shared.health.value
    simp_all [Health.ok]
  · rfl

theorem noteHealth_unhealthy (h : m.shared.health.poisoned = false) (reason : String) :
    (m.noteHealth false (some reason)).health = ⟨false, some reason⟩ := by
  unfold noteHealth modifyHealth health
  rw [RwLock.modify_value h]
  split
  · rename_i hsame
    cases hv : m.shared.health.value
    simp_all
  · rfl

@[simp] theorem setStreak_status (n : Nat) : (m.setStreak n).status = m.status := rfl
@[simp] theorem setStreak_config (n : Nat) : (m.setStreak n).config = m.config := rfl
@[simp] theorem setStreak_link (n : Nat) : (m.setStreak n).link = m.link := rfl
@[simp] theorem setStreak_health (n : Nat) : (m.setStreak n).health = m.health := rfl
@[simp] theorem setStreak_failStreak (n : Nat) : (m.setStreak n).failStreak = n := rfl

@[simp] theorem setDownSince_status (t : Option Instant) : (m.setDownSince t).status = m.status :=
  rfl
@[simp] theorem setDownSince_config (t : Option Instant) : (m.setDownSince t).config = m.config :=
  rfl
@[simp] theorem setDownSince_health (t : Option Instant) : (m.setDownSince t).health = m.health :=
  rfl
@[simp] theorem setDownSince_failStreak (t : Option Instant) :
    (m.setDownSince t).failStreak = m.failStreak := rfl
@[simp] theorem setDownSince_link (t : Option Instant) : (m.setDownSince t).link = ⟨t⟩ := rfl

@[simp] theorem setConfig_status (cfg : Config) : (m.setConfig cfg).status = m.status := rfl
@[simp] theorem setConfig_health (cfg : Config) : (m.setConfig cfg).health = m.health := rfl
@[simp] theorem setConfig_link (cfg : Config) : (m.setConfig cfg).link = m.link := rfl
@[simp] theorem setConfig_failStreak (cfg : Config) :
    (m.setConfig cfg).failStreak = m.failStreak := rfl

@[simp] theorem record_status (v : Verdict) : (m.record v).status = m.status := by
  cases v with
  | healthy => rfl
  | unhealthy reason => unfold record; dsimp only; split <;> rfl

@[simp] theorem record_config (v : Verdict) : (m.record v).config = m.config := by
  cases v with
  | healthy => rfl
  | unhealthy reason => unfold record; dsimp only; split <;> rfl

@[simp] theorem record_link (v : Verdict) : (m.record v).link = m.link := by
  cases v with
  | healthy => rfl
  | unhealthy reason => unfold record; dsimp only; split <;> rfl

@[simp] theorem lose_status (now : Instant) : (m.lose now).status = m.status := by
  unfold lose; split <;> rfl

@[simp] theorem lose_config (now : Instant) : (m.lose now).config = m.config := by
  unfold lose; split <;> rfl

@[simp] theorem refresh_config (c : Option Ipv4Net) (d : Bool) :
    (m.refresh c d).config = m.config := rfl

@[simp] theorem refresh_health (c : Option Ipv4Net) (d : Bool) :
    (m.refresh c d).health = m.health := rfl

@[simp] theorem refresh_failStreak (c : Option Ipv4Net) (d : Bool) :
    (m.refresh c d).failStreak = m.failStreak := rfl

@[simp] theorem refresh_link (c : Option Ipv4Net) (d : Bool) : (m.refresh c d).link = m.link := rfl

theorem refresh_status (h : m.shared.status.poisoned = false) (c : Option Ipv4Net) (d : Bool) :
    (m.refresh c d).status = { m.status with cidr := c, dnsmasqRunning := d } :=
  RwLock.modify_value h

theorem setConfig_config (h : m.shared.config.poisoned = false) (cfg : Config) :
    (m.setConfig cfg).config = cfg := RwLock.modify_value h

@[simp] theorem applied_error_status (e : Error) : (m.applied (.error e)).status = m.status := rfl

theorem applied_ok_status (h : m.shared.status.poisoned = false) (st : Status) :
    (m.applied (.ok st)).status = st := RwLock.modify_value h

@[simp] theorem applied_config (r : Except Error Status) : (m.applied r).config = m.config := by
  cases r <;> rfl

@[simp] theorem refresh_refresh (c c' : Option Ipv4Net) (d d' : Bool) :
    (m.refresh c d).refresh c' d' = m.refresh c' d' := by
  unfold refresh modifyStatus
  dsimp only
  rw [RwLock.modify_modify]

namespace Settled

theorem noteHealth (hm : m.Settled) (b : Bool) (r : Option String) : (m.noteHealth b r).Settled :=
  ⟨hm.idle, hm.config_lock, hm.status_lock, by simp [Mem.noteHealth, modifyHealth, hm.health_lock],
    hm.valid⟩

theorem setStreak (hm : m.Settled) (n : Nat) : (m.setStreak n).Settled :=
  ⟨hm.idle, hm.config_lock, hm.status_lock, hm.health_lock, hm.valid⟩

theorem setDownSince (hm : m.Settled) (t : Option Instant) : (m.setDownSince t).Settled :=
  ⟨hm.idle, hm.config_lock, hm.status_lock, hm.health_lock, hm.valid⟩

theorem modifyStatus (hm : m.Settled) (f : Status → Status) : (m.modifyStatus f).Settled :=
  ⟨hm.idle, hm.config_lock, by simp [Mem.modifyStatus, hm.status_lock], hm.health_lock, hm.valid⟩

theorem setConfig (hm : m.Settled) {cfg : Config} (hcfg : cfg.Valid) :
    (m.setConfig cfg).Settled := by
  refine ⟨hm.idle, by simp [Mem.setConfig, hm.config_lock], hm.status_lock, hm.health_lock, ?_⟩
  simp only [config, Mem.setConfig]
  rwa [RwLock.modify_value hm.config_lock]

theorem setApplying (hm : m.Settled) : m.setApplying false = m := by
  obtain ⟨⟨config, status, applying, health⟩, link, failStreak, nextRefresh⟩ := m
  obtain rfl : applying = false := hm.idle
  rfl

theorem applied_ok (hm : m.Settled) (st : Status) : m.applied (.ok st) = m.adopt st := by
  show (m.setApplying false).adopt st = _
  rw [hm.setApplying]

theorem applied_error (hm : m.Settled) (e : Error) : m.applied (.error e) = m := hm.setApplying

theorem record (hm : m.Settled) (v : Verdict) : (m.record v).Settled := by
  cases v with
  | healthy => exact (hm.setStreak 0).noteHealth true none
  | unhealthy reason =>
    unfold Mem.record
    dsimp only
    split
    · exact (hm.setStreak _).noteHealth _ _
    · exact hm.setStreak _

theorem adopt (hm : m.Settled) (s : Status) : (m.adopt s).Settled :=
  (((hm.setDownSince none).modifyStatus _).setStreak 0).noteHealth true none

theorem applied (hm : m.Settled) (r : Except Error Status) : (m.applied r).Settled := by
  cases r with
  | ok s => exact hm.applied_ok s ▸ hm.adopt s
  | error e => exact (hm.applied_error e).symm ▸ hm

theorem refresh (hm : m.Settled) (c : Option Ipv4Net) (d : Bool) : (m.refresh c d).Settled :=
  hm.modifyStatus _

theorem lose (hm : m.Settled) (now : Instant) : (m.lose now).Settled := by
  unfold Mem.lose
  split
  · exact ((hm.setDownSince _).setStreak 0).noteHealth true none
  · exact (hm.setStreak 0).noteHealth true none

theorem lose_health (hm : m.Settled) (now : Instant) : (m.lose now).health = .ok := by
  unfold Mem.lose
  split
  · exact noteHealth_ok ((hm.setDownSince _).setStreak 0).health_lock
  · exact noteHealth_ok (hm.setStreak 0).health_lock

end Settled
end Mem

section Settled
variable {Q : Unit → Mem × ω → Prop} {m : Mem} {w : ω}

theorem wp_onConfigReload (hm : m.Settled) :
    wp (daemonEnv X) onConfigReload Q (m, w) ↔ ∀ r w', X .loadJson w r w' →
      (∀ cfg, r = .ok cfg → cfg.Valid → ∀ out w'', X (.apply cfg) w' out w'' →
        Q () ((m.setConfig cfg).applied out, w'')) ∧
      ((∀ cfg, r = .ok cfg → ¬ cfg.Valid) → Q () (m, w')) := by
  simp only [onConfigReload, load, wp_bind, ExceptT.run_bind]
  simp only [ExceptT.run_mk, wp_ext, wp_ret]
  refine forall_congr' fun r => forall_congr' fun w' => imp_congr_right fun _ => ?_
  cases r with
  | error e => simp
  | ok cfg =>
    by_cases hvalid : cfg.Valid
    · have hv : cfg.validate = .ok () := hvalid
      simp [hvalid, hv, hm.config_lock]
    · obtain ⟨e, hv⟩ : ∃ e, cfg.validate = .error e := by
        cases hv : cfg.validate with
        | ok u => exact absurd hv hvalid
        | error e => exact ⟨e, rfl⟩
      simp [hvalid, hv]

theorem wp_onReconfigure (hm : m.Settled) :
    wp (daemonEnv X) onReconfigure Q (m, w) ↔
      ∀ out w', X (.apply m.config) w out w' → Q () (m.applied out, w') := by
  simp [onReconfigure, readMem, RwLock.read, hm.config_lock]

theorem wp_tick (hm : m.Settled) :
    wp (daemonEnv X) tick Q (m, w) ↔
      (m.status.iface = "" → Q () (m.record (.unhealthy "empty iface"), w)) ∧
      (¬ m.status.iface = "" →
        wp (daemonEnv X) (tickLink m.status.mode m.status.iface m.config) Q (m, w)) := by
  simp [tick, readMem, RwLock.read, hm.idle, hm.config_lock, hm.status_lock]

end Settled

/-! ## The calls of a tick with carrier -/

/-- The calls of `maybeSelfHeal`: the restart is that of the mode. -/
def HealCall (mode : Mode) (iface : String) (cfg : Config) : DaemonCall → Prop
  | .ext (.ctl (.gw .dhcpRunning)) | .ext (.ctl (.net (.dhclientRunning _))) => True
  | .ext (.ctl (.gw (.dhcpReloadOrRestart c i))) => mode = .gateway ∧ c = cfg ∧ i = iface
  | .ext (.ctl (.net (.startDhclient i))) => mode = .client ∧ i = iface
  | _ => False

/-- The calls of `tickCarrier`: those, reads of the address, and the memory. -/
def WatchCall (mode : Mode) (iface : String) (cfg : Config) : DaemonCall → Prop
  | .mem _ | .ext (.ctl (.net (.ifaceIpv4Cidr _))) => True
  | op => HealCall mode iface cfg op

theorem HealCall.watch {mode : Mode} {iface : String} {cfg : Config} {op : DaemonCall}
    (h : HealCall mode iface cfg op) : WatchCall mode iface cfg op := by
  unfold WatchCall
  split <;> trivial

section Within
variable (mode : Mode) (iface : String) (cfg : Config)

theorem within_modeProcRunning {K : Bool → Prop} (hK : ∀ b, K b) :
    (modeProcRunning mode iface).Within (HealCall mode iface cfg) K := by
  cases mode <;> simp [modeProcRunning, HealCall, hK]

theorem within_maybeSelfHeal :
    (maybeSelfHeal mode iface cfg).Within (HealCall mode iface cfg) fun _ => True := by
  unfold maybeSelfHeal
  cases mode with
  | static => simp [modeProcRunning, healAction]
  | gateway =>
    rw [within_bind]
    refine ⟨trivial, fun running => ?_⟩
    cases running <;> simp [healAction, HealCall]
  | client =>
    rw [within_bind]
    refine ⟨trivial, fun running => ?_⟩
    cases running <;> simp [healAction, HealCall]

theorem within_refreshLiveStatus (i : String) {K : Unit → Prop} (hK : K ()) :
    (refreshLiveStatus i).Within (WatchCall mode iface cfg) K := by
  simp [refreshLiveStatus, modifyMem, WatchCall, HealCall, hK]

theorem within_recordVerdict (v : Verdict) :
    (recordVerdict v).Within (WatchCall mode iface cfg) fun _ => True := by
  cases v with
  | healthy => simp [recordVerdict, setHealth, modifyMem, WatchCall]
  | unhealthy reason =>
    simp only [recordVerdict, setHealth, modifyMem, readMem, within_bind]
    refine ⟨trivial, fun _ => ⟨trivial, fun m => within_ite.mpr ?_⟩⟩
    exact ⟨fun _ => ⟨trivial, fun _ => trivial⟩, fun _ => trivial⟩

theorem within_tickCarrier :
    (tickCarrier mode iface cfg).Within (WatchCall mode iface cfg) fun _ => True := by
  have hwatch : ∀ op, HealCall mode iface cfg op → WatchCall mode iface cfg op :=
    fun _ => HealCall.watch
  simp only [tickCarrier, modifyMem, within_bind]
  refine ⟨trivial, fun _ => within_refreshLiveStatus _ _ _ _ ?_⟩
  refine within_mono hwatch (fun _ _ => ?_) (within_maybeSelfHeal mode iface cfg)
  refine within_refreshLiveStatus _ _ _ _ ⟨trivial, fun c => within_ret.mpr ?_⟩
  refine within_mono hwatch (fun b _ => ?_)
    (within_modeProcRunning mode iface cfg (K := fun _ => True) fun _ => trivial)
  exact within_recordVerdict mode iface cfg _

end Within
end Micronet

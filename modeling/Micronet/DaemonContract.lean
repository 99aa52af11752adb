import Micronet.Halting
import Micronet.DaemonStep
import Micronet.Timespec

/-!
# The contract of the daemon

What the loop guarantees at every call, as long as it is answered as it relies on: its
accesses keep the memory sound, and what it applies is valid and came from the file.
The answers it relies on are a sound memory, a clock that reads at most `T`, and a file
that only decodes to configurations in `C`.
-/
namespace Micronet
open Interaction Prog Monotonic

variable {C : Config → Prop} {T : Timespec}

/-- What holds of the memory while the loop runs. -/
structure Mem.Sound (C : Config → Prop) (m : Mem) : Prop where
  /-- The configuration is one that the file can decode to, and passed its validation. -/
  config : C m.config
  valid : m.config.Valid
  /-- The time of the next tick is one that an instant can hold. -/
  refresh : m.nextRefresh < limit

/-- An access that touches neither the configuration nor the next refresh. -/
theorem Mem.Sound.of_eq {m m' : Mem} (h : m.Sound C) (hc : m'.config = m.config)
    (hr : m'.nextRefresh = m.nextRefresh) : m'.Sound C :=
  ⟨hc ▸ h.config, hc ▸ h.valid, hr ▸ h.refresh⟩

/-- The methods that add nothing to an instant. -/
def CtlCall.Timeless : CtlCall → Prop
  | .net (.resolveIface _) | .gw (.probeForeignDhcp _ _) => False
  | _ => True

/-- What the daemon calls: its accesses keep the memory sound, and what it applies is
valid and from the file. -/
def DaemonCall.Guarantee (C : Config → Prop) : DaemonCall → Prop
  | .mem f => ∀ m, m.Sound C → (f m).Sound C
  | .ext (.apply cfg) => C cfg ∧ cfg.Valid
  | .ext (.ctl c) => c.Timeless
  | .ext _ => True

/-- What it is answered. -/
def DaemonCall.Rely (C : Config → Prop) (T : Timespec) : (c : DaemonCall) → c.Ret → Prop
  | .mem _, m => m.Sound C
  | .ext .now, now => now ≤ T.ticks
  | .ext .loadJson, r => ∀ cfg, r = .ok cfg → C cfg
  | .ext .loadOrCreateJson, r => ∀ cfg, r = .ok cfg → C cfg
  | .ext _, _ => True

/-- The daemon's programs keep their side. -/
abbrev Obeys {α : Type} (C : Config → Prop) (T : Timespec) (p : DaemonM α) (K : α → Prop) :
    Prop :=
  p.Meets (DaemonCall.Guarantee C) (DaemonCall.Rely C T) K

section Contract
variable {K : Unit → Prop}

theorem obeys_modifyMem {f : Mem → Mem} (hf : ∀ m, m.Sound C → (f m).Sound C) (hK : K ()) :
    Obeys C T (modifyMem f) K :=
  meets_bind.mpr ⟨hf, fun _ _ => hK⟩

/-- An access to what the contract does not speak of. -/
theorem obeys_touch {f : Mem → Mem} (hc : ∀ m, (f m).config = m.config)
    (hr : ∀ m, (f m).nextRefresh = m.nextRefresh) (hK : K ()) : Obeys C T (modifyMem f) K :=
  obeys_modifyMem (fun m hm => hm.of_eq (hc m) (hr m)) hK

theorem obeys_readMem {K : Mem → Prop} (hK : ∀ m, m.Sound C → K m) : Obeys C T readMem K :=
  ⟨fun _ => id, hK⟩

theorem obeys_setHealth (b : Bool) (r : Option String) (hK : K ()) :
    Obeys C T (setHealth b r) K := obeys_touch (fun _ => rfl) (fun _ => rfl) hK

theorem obeys_recordVerdict (v : Verdict) (hK : K ()) : Obeys C T (recordVerdict v) K := by
  cases v with
  | healthy =>
    refine meets_bind.mpr (obeys_touch (fun _ => rfl) (fun _ => rfl) ?_)
    exact obeys_setHealth _ _ hK
  | unhealthy reason =>
    refine meets_bind.mpr (obeys_touch (fun _ => rfl) (fun _ => rfl) ?_)
    refine meets_bind.mpr (obeys_readMem fun m _ => meets_ite.mpr ⟨fun _ => ?_, fun _ => hK⟩)
    exact obeys_setHealth _ _ hK

theorem obeys_applyAndAdopt {cfg : Config} (hc : C cfg) (hv : cfg.Valid) (hK : K ()) :
    Obeys C T (applyAndAdopt cfg) K := by
  have hnow : Obeys C T (applyNow cfg) fun _ => True := by
    refine meets_bind.mpr (obeys_touch (fun _ => rfl) (fun _ => rfl) ?_)
    refine meets_bind.mpr ⟨⟨hc, hv⟩, fun out _ => meets_bind.mpr ?_⟩
    exact obeys_touch (fun _ => rfl) (fun _ => rfl) trivial
  refine meets_bind.mpr (meets_mono (fun out _ => ?_) hnow)
  cases out with
  | error e => exact hK
  | ok st =>
    refine meets_bind.mpr (meets_bind.mpr (obeys_touch (fun _ => rfl) (fun _ => rfl) ?_))
    refine obeys_touch (fun _ => rfl) (fun _ => rfl) ?_
    refine meets_bind.mpr (obeys_touch (fun _ => rfl) (fun _ => rfl) ?_)
    exact obeys_setHealth _ _ hK

/-- What is loaded is checked. -/
theorem meets_validated {A : DaemonCall → Prop} {B : (c : DaemonCall) → c.Ret → Prop}
    {p : DaemonM (Except Error Config)} (hp : p.Meets A B fun r => ∀ cfg, r = .ok cfg → C cfg) :
    (do
      let cfg ← attempt p
      attempt (Pure.pure cfg.validate)
      return cfg : ExceptT Error (Prog DaemonSig) Config).run.Meets A B
      fun r => ∀ cfg, r = .ok cfg → C cfg ∧ cfg.Valid := by
  rw [ExceptT.run_bind]
  refine meets_bind.mpr (meets_mono (fun r hr => ?_) hp)
  cases r with
  | error e => exact fun cfg h => nomatch h
  | ok cfg =>
    cases hv : cfg.validate with
    | error e => simp [hv]
    | ok u => simp [hv, Config.Valid, hr cfg rfl]

theorem obeys_load : Obeys C T load.run fun r => ∀ cfg, r = .ok cfg → C cfg ∧ cfg.Valid :=
  meets_validated ⟨trivial, fun _ hr => hr⟩

/-- Storing a valid configuration from the file. -/
theorem Mem.Sound.setConfig {m : Mem} (hm : m.Sound C) {cfg : Config} (hc : C cfg)
    (hv : cfg.Valid) : (m.setConfig cfg).Sound C := by
  cases hp : m.shared.config.poisoned with
  | true => exact hm.of_eq (by simp [Mem.setConfig, Mem.config, RwLock.modify, hp]) rfl
  | false =>
    have hcfg : (m.setConfig cfg).config = cfg := Mem.setConfig_config hp cfg
    exact ⟨by rwa [hcfg], by rwa [hcfg], hm.refresh⟩

theorem obeys_onConfigReload (hK : K ()) : Obeys C T onConfigReload K := by
  refine meets_bind.mpr (meets_mono (fun r hr => ?_) obeys_load)
  cases r with
  | error e => exact hK
  | ok cfg =>
    obtain ⟨hc, hv⟩ := hr cfg rfl
    refine meets_bind.mpr ⟨fun m hm => hm.setConfig hc hv, fun m _ => meets_ite.mpr ?_⟩
    exact ⟨fun _ => hK, fun _ => obeys_applyAndAdopt hc hv hK⟩

theorem obeys_onReconfigure (hK : K ()) : Obeys C T onReconfigure K := by
  refine meets_bind.mpr (obeys_readMem fun m hm => ?_)
  unfold RwLock.read
  cases m.shared.config.poisoned with
  | true => exact hK
  | false => exact obeys_applyAndAdopt hm.config hm.valid hK

theorem obeys_refreshLiveStatus (iface : String) (hK : K ()) :
    Obeys C T (refreshLiveStatus iface) K := by
  refine meets_bind.mpr ⟨trivial, fun c _ => meets_bind.mpr ⟨trivial, fun d _ => ?_⟩⟩
  exact obeys_touch (fun _ => rfl) (fun _ => rfl) hK

theorem obeys_modeProcRunning (mode : Mode) (iface : String) {K : Bool → Prop} (hK : ∀ b, K b) :
    Obeys C T (modeProcRunning mode iface) K := by
  cases mode with
  | gateway => exact ⟨trivial, fun b _ => hK b⟩
  | client => exact ⟨trivial, fun b _ => hK b⟩
  | static => exact hK true

theorem obeys_maybeSelfHeal (mode : Mode) (iface : String) (cfg : Config) (hK : K ()) :
    Obeys C T (maybeSelfHeal mode iface cfg) K := by
  refine meets_bind.mpr (obeys_modeProcRunning mode iface fun running => ?_)
  cases healAction mode running with
  | none => exact hK
  | restartDnsmasq => exact ⟨trivial, fun _ _ => hK⟩
  | restartDhclient => exact ⟨trivial, fun _ _ => hK⟩

theorem obeys_tickCarrier (mode : Mode) (iface : String) (cfg : Config) (hK : K ()) :
    Obeys C T (tickCarrier mode iface cfg) K := by
  refine meets_bind.mpr (obeys_touch (fun _ => rfl) (fun _ => rfl) ?_)
  refine meets_bind.mpr (obeys_refreshLiveStatus iface ?_)
  refine meets_bind.mpr (obeys_maybeSelfHeal mode iface cfg ?_)
  refine meets_bind.mpr (obeys_refreshLiveStatus iface ?_)
  refine meets_bind.mpr ⟨trivial, fun cidr _ => meets_bind.mpr ?_⟩
  exact obeys_modeProcRunning mode iface fun running => obeys_recordVerdict _ hK

theorem obeys_tickNoCarrier {cfg : Config} (now : Instant) (hc : C cfg) (hv : cfg.Valid)
    (hK : K ()) : Obeys C T (tickNoCarrier cfg now) K := by
  have hlose (m : Mem) :
      (if m.link.downSince.isNone then m.setDownSince (some now) else m).config = m.config ∧
        (if m.link.downSince.isNone then m.setDownSince (some now) else m).nextRefresh =
          m.nextRefresh := by
    split <;> exact ⟨rfl, rfl⟩
  refine meets_bind.mpr (obeys_touch (fun m => (hlose m).1) (fun m => (hlose m).2) ?_)
  refine meets_bind.mpr (obeys_touch (fun _ => rfl) (fun _ => rfl) ?_)
  refine meets_bind.mpr (obeys_setHealth _ _ ?_)
  refine meets_bind.mpr (obeys_readMem fun m _ => meets_ite.mpr ⟨fun _ => ?_, fun _ => hK⟩)
  exact obeys_applyAndAdopt hc hv hK

theorem obeys_tickLink (mode : Mode) (iface : String) {cfg : Config} (hc : C cfg)
    (hv : cfg.Valid) (hK : K ()) : Obeys C T (tickLink mode iface cfg) K := by
  refine meets_bind.mpr ⟨trivial, fun up _ => meets_bind.mpr ⟨trivial, fun now _ => ?_⟩⟩
  refine meets_ite.mpr ⟨fun _ => obeys_tickCarrier mode iface cfg hK, fun _ => ?_⟩
  exact obeys_tickNoCarrier now hc hv hK

theorem obeys_tick (hK : K ()) : Obeys C T tick K := by
  refine meets_bind.mpr (obeys_readMem fun m _ => meets_ite.mpr ⟨fun _ => ?_, fun _ => ?_⟩)
  · refine meets_bind.mpr (obeys_touch (fun _ => rfl) (fun _ => rfl) ?_)
    exact obeys_setHealth _ _ hK
  · refine meets_bind.mpr (obeys_readMem fun m _ => ?_)
    cases m.shared.status.read with
    | none => exact hK
    | some st =>
      refine meets_ite.mpr ⟨fun _ => obeys_recordVerdict _ hK, fun _ => ?_⟩
      refine meets_bind.mpr (obeys_readMem fun m hm => ?_)
      unfold RwLock.read
      cases m.shared.config.poisoned with
      | true => exact hK
      | false => exact obeys_tickLink st.mode st.iface hm.config hm.valid hK

/-- The next refresh is an instant. -/
theorem obeys_setNextRefresh {now : Instant} (hT : T.secs + 3 < 2 ^ 63) (hnow : now ≤ T.ticks)
    (hK : K ()) :
    Obeys C T (modifyMem fun m => { m with nextRefresh := now + statusRefresh }) K := by
  have hlt : Fits now statusRefresh := ((T.fits_secs 3).mpr hT).mono hnow
  exact obeys_modifyMem (fun m hm => ⟨hm.config, hm.valid, hlt⟩) hK

theorem obeys_tickIfDue (hT : T.secs + 3 < 2 ^ 63) (hK : K ()) : Obeys C T tickIfDue K := by
  refine meets_bind.mpr ⟨trivial, fun now _ => meets_bind.mpr (obeys_readMem fun m _ => ?_)⟩
  refine meets_ite.mpr ⟨fun _ => meets_bind.mpr (obeys_tick ?_), fun _ => hK⟩
  exact meets_bind.mpr ⟨trivial, fun now hnow => obeys_setNextRefresh hT hnow hK⟩

theorem obeys_loopBody (hT : T.secs + 3 < 2 ^ 63) : Obeys C T loopBody fun _ => True := by
  have hrest (reload : Bool) (event : Recv) : Obeys C T (do
      (if reload then onConfigReload else Pure.pure ())
      (if event = .reconfigure then onReconfigure else Pure.pure ())
      tickIfDue
      return true) fun _ => True := by
    refine meets_bind.mpr (meets_ite.mpr ⟨fun _ => obeys_onConfigReload ?_, fun _ => ?_⟩)
    all_goals
      refine meets_bind.mpr (meets_ite.mpr ⟨fun _ => obeys_onReconfigure ?_, fun _ => ?_⟩)
      all_goals exact meets_bind.mpr (obeys_tickIfDue hT trivial)
  refine meets_bind.mpr ⟨trivial, fun stop _ => meets_ite.mpr ⟨fun _ => trivial, fun _ => ?_⟩⟩
  refine meets_bind.mpr ⟨trivial, fun event _ => ?_⟩
  cases event with
  | disconnected => exact trivial
  | reconfigure => exact meets_bind.mpr ⟨trivial, fun reload _ => hrest reload .reconfigure⟩
  | timeout => exact meets_bind.mpr ⟨trivial, fun reload _ => hrest reload .timeout⟩

theorem obeys_loop (hT : T.secs + 3 < 2 ^ 63) (k : Nat) : Obeys C T (loop k) fun _ => True := by
  induction k with
  | zero => exact trivial
  | succ k ih =>
    refine meets_bind.mpr (meets_mono (fun more _ => ?_) (obeys_loopBody hT))
    exact meets_ite.mpr ⟨fun _ => ih, fun _ => trivial⟩

/-! ### The start -/

/-- The start, once there is a memory. -/
def listen : ExceptT Error (Prog DaemonSig) Unit := do
  attempt (ext .serve)
  attempt (ext .spawnWatch)
  attempt (ext .installSignals)
  let now ← ext .now
  modifyMem fun m => { m with nextRefresh := now + statusRefresh }

theorem run_eq (k : Nat) : run k = (do
    let cfg ← loadOrCreate
    let status ← initialStatus cfg
    modifyMem fun _ => .new cfg status
    listen
    loop k) := by
  simp only [run, start, listen, bind_assoc]

theorem obeys_listen (hT : T.secs + 3 < 2 ^ 63) (k : Nat) :
    Obeys C T (do listen; loop k : ExceptT Error (Prog DaemonSig) Unit).run fun _ => True := by
  have hK : ∀ e : Error, (fun _ : Except Error Unit => True) (.error e) := fun _ => trivial
  simp only [listen, bind_assoc]
  refine (meets_run_bind hK).mpr ⟨trivial, fun _ _ _ _ => ?_⟩
  refine (meets_run_bind hK).mpr ⟨trivial, fun _ _ _ _ => ?_⟩
  refine (meets_run_bind hK).mpr ⟨trivial, fun _ _ _ _ => ?_⟩
  rw [run_lift_bind]
  refine meets_bind.mpr ⟨trivial, fun now hnow => ?_⟩
  rw [meets_ret, run_lift_bind]
  refine meets_bind.mpr (obeys_setNextRefresh hT hnow ?_)
  exact meets_bind.mpr (meets_mono (fun _ _ => trivial) (obeys_loop hT k))

/-- Before there is a memory, none is touched. -/
def DaemonCall.Early (C : Config → Prop) : DaemonCall → Prop
  | .mem _ => False
  | .ext c => DaemonCall.Guarantee C (.ext c)

theorem early_loadOrCreate : loadOrCreate.run.Meets (DaemonCall.Early C) (DaemonCall.Rely C T)
    fun r => ∀ cfg, r = .ok cfg → C cfg ∧ cfg.Valid :=
  meets_validated ⟨trivial, fun _ hr => hr⟩

theorem early_initialStatus {cfg : Config} (hc : C cfg) (hv : cfg.Valid) :
    (initialStatus cfg).Meets (DaemonCall.Early C) (DaemonCall.Rely C T) fun _ => True := by
  refine meets_bind.mpr ⟨⟨hc, hv⟩, fun r _ => ?_⟩
  cases r with
  | ok st => exact trivial
  | error e => exact trivial

end Contract

end Micronet

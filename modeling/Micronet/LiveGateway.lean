import Micronet.DhcpRun
import Micronet.FailClosed
import Micronet.LiveRuns

/-!
# `LiveGateway` in the daemon

The methods of `LiveGateway` are the functions of `dhcp` on a host where processes end and
start at any call, as long as what they take for dnsmasq is ours (`DhcpHost.Genuine`).  In every
run, over any network, the daemon's dnsmasq runs only while the cached mode is `Gateway`, on the
cached interface, and on the text of the last reload, whose configuration is valid; otherwise it
is one that was left over from before the start and that no reload has followed
(`served_by_last_reload`).
-/
namespace Micronet
open Interaction Prog

/-! ## The methods -/

namespace LiveGateway

/-- `impl GatewayCtl for LiveGateway`; the probe does nothing with dnsmasq, and any answer of
the LAN is allowed. -/
def env (paths : DhcpPaths) : Env GwSig DhcpHost
  | .dhcpRunning, s, r, t => Dhcp.isRunning.Exec (DhcpHost.env DhcpHost.Genuine) s r t
  | .dhcpStop, s, r, t => Dhcp.stop.run.Exec (DhcpHost.env DhcpHost.Genuine) s r t
  | .dhcpReloadOrRestart cfg iface, s, r, t =>
    (dhcpReloadOrRestart paths cfg iface).run.Exec (DhcpHost.env DhcpHost.Genuine) s r t
  | .probeForeignDhcp _ _, s, _, t => s.Drifts t

end LiveGateway

/-- The conf of a gateway. -/
def confBody (paths : DhcpPaths) (cfg : Config) (iface : String) : String :=
  renderConf cfg iface paths.leasefile paths.pidfile

/-- The call writes a conf. -/
def GwCall.reloads : GwCall → Bool
  | .dhcpReloadOrRestart _ _ => true
  | _ => false

namespace DhcpHost
variable {paths : DhcpPaths} {s t u : DhcpHost} {cfg : Config} {iface : String}

/-- Whatever of ours runs after it ran before, and has read the file. -/
structure Outlives (s t : DhcpHost) : Prop where
  /-- The pidfile names what runs. -/
  current : t.Current
  /-- What runs has been running, on the text it had. -/
  runs : ∀ pid c, t.Runs pid c → s.Runs pid c

theorem Outlives.trans (h : s.Outlives t) (h' : t.Outlives u) : s.Outlives u :=
  ⟨h'.current, fun pid c hp => h.runs pid c (h'.runs pid c hp)⟩

theorem Current.outlives (h : s.Current) : s.Outlives s := ⟨h, fun _ _ hp => hp⟩

theorem Drifts.outlives (h : s.Drifts t) (hs : s.Current) : s.Outlives t :=
  ⟨survives_current s t hs h, fun _ _ hp => h.runs hp⟩

theorem Outlives.down (h : s.Outlives t) (hs : s.Down) : t.Down :=
  fun pid c hp => hs pid c (h.runs pid c hp)

/-! ## What each method does -/

theorem survives_outlives : Survives s.Outlives :=
  fun _ _ hu h => hu.trans (h.outlives hu.current)

/-- One of ours that runs is found, and only that. -/
theorem running_cases {r : Bool} (hs : s.Current) (h : LiveGateway.env paths .dhcpRunning s r t) :
    s.Outlives t ∧ (r = true ↔ ¬ t.Down) :=
  wp_iff.mp (wp_isRunning survives_outlives (fun _ hu => hu.current.named) hs.outlives) r t h

theorem stop_cases {r : Except Error Unit} (hs : s.Current)
    (h : LiveGateway.env paths .dhcpStop s r t) : t.Down := by
  have hstop := wpE_iff.mp (wpE_stop (R := fun _ u => u.Down) hs.named rfl) r t h
  cases r with
  | ok _ => exact hstop.2
  | error e => exact hstop

theorem withinE_ensureConf_noSpawn (body : String) :
    WithinE (fun c : DhcpCall => c ≠ .spawn) (fun _ => True) (Dhcp.ensureConf body) := by
  simp [Dhcp.ensureConf]

/-- **A reload** leaves dnsmasq on its own text; one that fails starts nothing. -/
theorem wpE_reload (hs : s.Current) :
    wpE (DhcpHost.env Genuine) (dhcpReloadOrRestart paths cfg iface)
      (fun _ t => t.Serves (confBody paths cfg iface))
      (fun _ t => t.Current ∧ (s.Down → t.Down)) s := by
  unfold dhcpReloadOrRestart
  rw [wpE_bind, wpE_lift]
  refine wp_look (I := fun u => u.Current ∧ (s.Down → u.Down))
    (survives_current.and fun u v hu h hn => survives_down u v (hu hn) h) trivial ⟨hs, id⟩ ?_
  rintro _ t ⟨ht, hdown⟩ -
  rw [wp_ret, wpE_bind]
  have hbody := renderConf_ne_empty cfg iface paths.leasefile paths.pidfile
  refine wpE_mono (wpE_and (wpE_ensureConf hbody ht)
    (wpE_within (I := fun u => s.Down → u.Down)
      (fun _ _ _ _ hop hu h hn => (hu hn).step hop h)
      (withinE_ensureConf_noSpawn _) hdown)) ?_ ?_
  · rintro changed u ⟨⟨hnamed, hconf, hsame⟩, -⟩
    exact wpE_mono (wpE_reloadOrRestart hnamed hconf hsame) (fun _ _ h => h)
      fun _ _ h => ⟨h.current, fun _ => h.2⟩
  · exact fun _ _ h => h

/-- A method that does not reload starts nothing. -/
theorem outlives_of_not_reloads {c : GwCall} {r : c.Ret} (hc : c.reloads = false)
    (hs : s.Current) (h : LiveGateway.env paths c s r t) : s.Outlives t := by
  cases c with
  | dhcpRunning => exact (running_cases hs h).1
  | dhcpStop =>
    have hdown := stop_cases hs h
    exact ⟨hdown.current, fun pid c hp => absurd hp (hdown pid c)⟩
  | dhcpReloadOrRestart cfg iface => cases hc
  | probeForeignDhcp iface timeout => exact Drifts.outlives h hs

/-- What runs has read `body`. -/
def Reads (body : String) (s : DhcpHost) : Prop :=
  s.Current ∧ ∀ pid c, s.Runs pid c → c = .text body

theorem reload_cases {r : Except Error Unit} (hs : s.Current)
    (h : LiveGateway.env paths (.dhcpReloadOrRestart cfg iface) s r t) :
    (r = .ok () → t.Reads (confBody paths cfg iface)) ∧
      (isErr r → t.Current ∧ (s.Down → t.Down)) := by
  have hreload := wpE_iff.mp (wpE_reload hs) r t h
  cases r with
  | ok _ =>
    obtain ⟨⟨hcurrent, hconf⟩, -⟩ := hreload
    refine ⟨fun _ => ⟨hcurrent, fun pid c hp => ?_⟩, fun herr => nomatch herr⟩
    exact Option.some.inj ((hcurrent.conf pid c hp).symm.trans hconf)
  | error e => exact ⟨fun hok => (nomatch hok), fun _ => hreload⟩

end DhcpHost

/-! ## The last reload -/

section Log
variable {σ : Type}

/-- What a reload is asked for. -/
def Event.reload : Event CtlSig σ → Option (Config × String)
  | ⟨.gw (.dhcpReloadOrRestart cfg iface), _, _⟩ => some (cfg, iface)
  | _ => none

/-- What the last reload was asked for. -/
def lastReload (l : Log CtlSig σ) : Option (Config × String) := lastOf Event.reload l

theorem lastReload_append {l seg : Log CtlSig σ} (h : ∀ e ∈ seg, Event.reload e = none) :
    lastReload (l ++ seg) = lastReload l := by
  rw [lastReload, lastOf_append, lastOf_eq_none.mpr h, Option.none_or]
  rfl

/-- The call is none to reload. -/
def CtlCall.Tame : CtlCall → Prop
  | .net _ => True
  | .gw c => c.reloads = false

theorem CtlCall.Tame.reload {e : Event CtlSig σ} (h : e.op.Tame) : Event.reload e = none := by
  obtain ⟨op, pre, r⟩ := e
  rcases op with c | c
  · rfl
  · cases c <;> first | rfl | cases h

end Log

/-! ## One apply -/

section Apply
variable {ν : Type} {N : Env NetSig ν} {paths : DhcpPaths}

/-- The state beside a log of calls. -/
abbrev Noted (ν : Type) : Type := (ν × DhcpHost) × Log CtlSig (ν × DhcpHost)

/-- Nothing has been started or reloaded since `x`. -/
structure Quiet (x y : Noted ν) : Prop where
  /-- What runs ran in `x`. -/
  outlives : x.1.2.Outlives y.1.2
  /-- The last reload is the one of `x`. -/
  reload : lastReload y.2 = lastReload x.2

/-- No dnsmasq of ours runs. -/
def Off (x : Noted ν) : Prop := x.1.2.Down

/-- What runs is what the last reload, for `cfg` on `iface`, has started. -/
def Fed (paths : DhcpPaths) (cfg : Config) (iface : String) (x : Noted ν) : Prop :=
  x.1.2.Reads (confBody paths cfg iface) ∧ lastReload x.2 = some (cfg, iface)

variable {x y : Noted ν} {cfg : Config} {k : String}

theorem Quiet.off (h : Quiet x y) (hx : Off x) : Off y := h.outlives.down hx

theorem quiet_step {c : CtlCall} {r : c.Ret} (hc : c.Tame) (hx : x.1.2.Current)
    (h : (ctlEnv N (LiveGateway.env paths)).logged c x r y) : Quiet x y := by
  obtain ⟨hE, hlog⟩ := h
  refine ⟨?_, ?_⟩
  · rcases c with c | c
    · rw [hE.2]
      exact hx.outlives
    · exact DhcpHost.outlives_of_not_reloads hc hx hE.1
  · rw [hlog]
    refine lastReload_append fun e he => ?_
    rw [List.mem_singleton.mp he]
    exact CtlCall.Tame.reload hc

/-- **Tame calls** start and reload nothing. -/
theorem wpE_tame {α : Type} {P : α → Prop} {p : Act α} (hp : WithinE CtlCall.Tame P p)
    (hx : x.1.2.Current) :
    wpE (ctlEnv N (LiveGateway.env paths)).logged p (fun a y => P a ∧ Quiet x y)
      (fun _ y => Quiet x y) x := by
  refine wpE_within (I := Quiet x) ?_ hp ⟨hx.outlives, rfl⟩
  intro c u r v hc hu h
  have hstep := quiet_step hc hu.outlives.current h
  exact ⟨hu.outlives.trans hstep.outlives, hstep.reload.trans hu.reload⟩

theorem within_seekOffer_tame (cfg : Config) (k : String) :
    WithinE CtlCall.Tame (fun _ => True) (seekOffer cfg k) := by
  have hloop : (isolateIface k).Within CtlCall.Tame fun _ => True := by
    refine within_isolateIface (fun c hc => ?_) trivial
    rcases c with c | c
    · trivial
    · exact hc.elim
  simp [seekOffer, probeOn, hloop, CtlCall.Tame, GwCall.reloads]

/-- **After the probe** nothing of ours runs. -/
theorem wpE_probeOn_off (hx : x.1.2.Current) :
    wpE (ctlEnv N (LiveGateway.env paths)).logged (probeOn cfg k) (fun _ y => Off y)
      (fun _ _ => True) x := by
  have hprobe : ∀ y : Noted ν, Off y → wpE (ctlEnv N (LiveGateway.env paths)).logged
      (attempt (GatewayCtl.probeForeignDhcp k (.fromSecs cfg.probeTimeoutSecs)))
      (fun _ z => Off z) (fun _ _ => True) y := by
    intro y hy
    rw [wpE_mk, wp_logged_gw]
    intro r g hdrift
    rw [wp_ret]
    cases r with
    | error e => trivial
    | ok offer => exact DhcpHost.survives_down _ _ hy hdrift
  unfold probeOn
  rw [wpE_bind, wpE_mk, wp_logged_net]
  intro r t _
  rw [wp_ret]
  cases r with
  | error e => trivial
  | ok _ =>
    rw [post_ok, wpE_bind, wpE_lift, wp_logged_gw]
    intro running g hrun
    obtain ⟨hg, hrunning⟩ := DhcpHost.running_cases hx hrun
    rw [wp_ret, wpE_bind, wpE_ite]
    refine ⟨fun _ => ?_, fun hdead => ?_⟩
    · rw [wpE_mk, wp_logged_gw]
      intro r g' hstop
      rw [wp_ret]
      cases r with
      | error e => trivial
      | ok _ => exact hprobe _ (DhcpHost.stop_cases hg.current hstop)
    · rw [wpE_pure]
      exact hprobe _ (not_not.mp fun hn => hdead (hrunning.mpr hn))

theorem wpE_seekOffer_off (hx : x.1.2.Current) :
    wpE (ctlEnv N (LiveGateway.env paths)).logged (seekOffer cfg k) (fun _ y => Off y)
      (fun _ y => Quiet x y) x := by
  have hoff : wpE (ctlEnv N (LiveGateway.env paths)).logged (seekOffer cfg k) (fun _ y => Off y)
      (fun _ _ => True) x := by
    have htame : WithinE CtlCall.Tame (fun _ => True) (do
        isolateIface k
        attempt (NetOps.bringUp k) : Act Unit) := by
      have hloop : (isolateIface k).Within CtlCall.Tame fun _ => True := by
        refine within_isolateIface (fun c hc => ?_) trivial
        rcases c with c | c
        · trivial
        · exact hc.elim
      simp [hloop, CtlCall.Tame]
    rw [seekOffer, ← bind_assoc, wpE_bind]
    exact wpE_mono (wpE_tame htame hx) (fun _ _ h => wpE_probeOn_off h.2.outlives.current)
      fun _ _ _ => trivial
  exact wpE_mono (wpE_and hoff (wpE_tame (within_seekOffer_tame cfg k) hx)) (fun _ _ h => h.1)
    fun _ _ h => h.2

/-- What the gateway's own apply does before the reload. -/
def readdressGateway (cfg : Config) (k : String) : Act Unit := do
  let have_ ← NetOps.ifaceIpv4Cidr k
  (if have_ ≠ some cfg.gatewayCidr then do
    attempt (NetOps.flushAddr k)
    attempt (NetOps.addAddr k cfg.gatewayCidr)
  else pure ())
  attempt NetOps.delDefault

/-- The reload, and what is reported of it. -/
def serveGateway (cfg : Config) (k : String) : Act Status := do
  attempt (GatewayCtl.dhcpReloadOrRestart cfg k)
  let dnsmasqRunning ← GatewayCtl.dhcpRunning
  return { mode := .gateway, iface := k, cidr := some cfg.gatewayCidr, foreignDhcp := false,
           gatewayReachable := false, dnsmasqRunning }

theorem applyGateway_eq (cfg : Config) (k : String) :
    applyGateway cfg k = readdressGateway cfg k >>= fun _ => serveGateway cfg k := by
  simp only [applyGateway, readdressGateway, serveGateway, bind_assoc]

/-- dnsmasq is started, or does not run. -/
theorem wpE_serveGateway_fed (hx : Off x) :
    wpE (ctlEnv N (LiveGateway.env paths)).logged (serveGateway cfg k)
      (fun st y => st.mode = .gateway ∧ st.iface = k ∧ Fed paths cfg k y) (fun _ y => Off y) x := by
  rw [serveGateway, wpE_bind, wpE_mk, wp_logged_gw]
  intro r g hreload
  rw [wp_ret]
  obtain ⟨hok, herr⟩ := DhcpHost.reload_cases (DhcpHost.Down.current hx) hreload
  cases r with
  | error e => exact (herr rfl).2 hx
  | ok _ =>
    obtain ⟨hcurrent, hreads⟩ := hok rfl
    rw [post_ok, wpE_bind, wpE_lift, wp_logged_gw]
    intro running g' hrun
    obtain ⟨hout, -⟩ := DhcpHost.running_cases hcurrent hrun
    refine ⟨rfl, rfl, ⟨hout.current, fun pid c hp => hreads pid c (hout.runs pid c hp)⟩, ?_⟩
    simp [lastReload, Event.reload]

theorem wpE_applyGateway_fed (hx : Off x) :
    wpE (ctlEnv N (LiveGateway.env paths)).logged (applyGateway cfg k)
      (fun st y => st.mode = .gateway ∧ st.iface = k ∧ Fed paths cfg k y) (fun _ y => Off y) x := by
  have htame : WithinE CtlCall.Tame (fun _ => True) (readdressGateway cfg k) := by
    simp [readdressGateway, CtlCall.Tame]
  rw [applyGateway_eq, wpE_bind]
  exact wpE_mono (wpE_tame htame (DhcpHost.Down.current hx))
    (fun _ _ h => wpE_serveGateway_fed (h.2.off hx)) fun _ _ h => h.off hx

/-- **The modes** start dnsmasq as a gateway, or leave it off. -/
theorem wpE_applyOffer_fed (foreign : Bool) (hx : Off x) :
    wpE (ctlEnv N (LiveGateway.env paths)).logged (applyOffer cfg k foreign)
      (fun st y => Off y ∨ st.mode = .gateway ∧ st.iface = k ∧ Fed paths cfg k y)
      (fun _ y => Off y) x := by
  have hoff : ∀ {p : Act Status} {z : Noted ν}, WithinE CtlCall.Tame (fun _ => True) p → Off z →
      wpE (ctlEnv N (LiveGateway.env paths)).logged p
        (fun st y => Off y ∨ st.mode = .gateway ∧ st.iface = k ∧ Fed paths cfg k y)
        (fun _ y => Off y) z := by
    intro p z hp hz
    exact wpE_mono (wpE_tame hp (DhcpHost.Down.current hz)) (fun _ _ h => Or.inl (h.2.off hz))
      fun _ _ h => h.off hz
  have hmode : ∀ mode z, Off z →
      wpE (ctlEnv N (LiveGateway.env paths)).logged (applyMode cfg k cfg.staticAddr mode)
        (fun st y => Off y ∨ st.mode = .gateway ∧ st.iface = k ∧ Fed paths cfg k y)
        (fun _ y => Off y) z := by
    intro mode z hz
    cases mode with
    | client => exact hoff (by simp [applyMode, applyClient, CtlCall.Tame, GwCall.reloads]) hz
    | static => exact hoff (by simp [applyMode, applyStatic, CtlCall.Tame, GwCall.reloads]) hz
    | gateway => exact wpE_mono (wpE_applyGateway_fed hz) (fun _ _ h => Or.inr h) fun _ _ h => h
  cases foreign with
  | true => exact hmode .client x hx
  | false =>
    show wpE _ (applyLocal cfg k) _ _ _
    have htame : WithinE CtlCall.Tame (fun _ => True) (do
        assignStatic cfg k
        askGateway cfg : Act Bool) := by
      simp [assignStatic, askGateway, CtlCall.Tame]
    rw [applyLocal, ← bind_assoc, wpE_bind]
    exact wpE_mono (wpE_tame htame (DhcpHost.Down.current hx))
      (fun reachable y h => hmode (Mode.decide false reachable) y (h.2.off hx))
        fun _ _ h => h.off hx

/-- **One apply**: dnsmasq runs on its reload, or not at all; where it fails nothing may have
happened. -/
theorem wpE_applyWith_fed (hx : x.1.2.Current) :
    wpE (ctlEnv N (LiveGateway.env paths)).logged (applyWith cfg)
      (fun st y => Off y ∨ st.mode = .gateway ∧ Fed paths cfg st.iface y)
      (fun _ y => Off y ∨ Quiet x y) x := by
  rw [applyWith_eq, wpE_bind, wpE_mk, wp_pure]
  cases cfg.validate with
  | error e => exact Or.inr ⟨hx.outlives, rfl⟩
  | ok _ =>
    rw [post_ok, wpE_bind]
    refine wpE_mono (wpE_tame (P := fun _ => True) (by simp [CtlCall.Tame]) hx) ?_
      fun _ _ h => Or.inr h
    rintro k y ⟨-, hy⟩
    rw [applyOn, wpE_bind]
    refine wpE_mono (wpE_seekOffer_off hy.outlives.current) ?_ fun _ z hz => Or.inr ?_
    · intro foreign z hz
      refine wpE_mono (wpE_applyOffer_fed foreign hz) ?_ fun _ _ h => Or.inl h
      rintro st u (h | ⟨hmode, rfl, hfed⟩)
      · exact Or.inl h
      · exact Or.inr ⟨hmode, hfed⟩
    · exact ⟨hy.outlives.trans hz.outlives, hz.reload.trans hy.reload⟩

end Apply

/-! ## One tick -/

theorem CtlCall.Quiet.tame {c : CtlCall} (h : c.Quiet) : c.Tame := by
  rcases c with c | c
  · trivial
  · cases c <;> first | rfl | exact h.elim

/-- The calls of a tick but the reload. -/
def DaemonCall.Quiet : DaemonCall → Prop
  | .mem _ => True
  | .ext (.ctl c) => c.Quiet
  | .ext _ => False

section Tick
variable {ω : Type} {X : Env ExtSig ω} {I : ω → Prop} {mode : Mode} {iface : String} {cfg : Config}
  {m : Mem} {w : ω} (hkeep : ∀ c w r w', CtlCall.Quiet c → I w → X (.ctl c) w r w' → I w')

include hkeep

theorem wp_quiet {α : Type} {p : DaemonM α} (hp : p.Within DaemonCall.Quiet fun _ => True)
    (hw : I w) : wp (daemonEnv X) p (fun _ t => I t.2) (m, w) := by
  refine wp_mono (wp_within (I := fun t : Mem × ω => I t.2) ?_ hp hw) fun _ _ h => h.2
  rintro (f | c) s r t hc hs hE
  · exact hE.2 ▸ hs
  · cases c with
    | ctl c => exact hkeep c s.2 r t.2 hc hs hE.1
    | _ => exact hc.elim

variable (hrestart : ∀ u v w r, mode = .gateway → I u → X (.ctl (.gw .dhcpRunning)) u false v →
  X (.ctl (.gw (.dhcpReloadOrRestart cfg iface))) v r w → I w)

include hrestart

/-- **The restart of a tick** follows the look that found nothing running. -/
theorem wp_maybeSelfHeal_rule (hw : I w) :
    wp (daemonEnv X) (maybeSelfHeal mode iface cfg) (fun _ t => I t.2) (m, w) := by
  cases mode with
  | static => exact wp_quiet hkeep (by simp [maybeSelfHeal, modeProcRunning, healAction]) hw
  | client =>
    refine wp_quiet hkeep ?_ hw
    unfold maybeSelfHeal modeProcRunning
    rw [within_bind]
    refine ⟨trivial, fun running => ?_⟩
    cases running <;> simp [healAction, DaemonCall.Quiet, CtlCall.Quiet]
  | gateway =>
    unfold maybeSelfHeal modeProcRunning
    rw [wp_bind, wp_ext]
    intro running v hrun
    rw [wp_ret]
    cases running with
    | true => exact hkeep (.gw .dhcpRunning) w _ v trivial hw hrun
    | false =>
      show wp _ (do
        let _ ← ctl (.gw (.dhcpReloadOrRestart cfg iface))
        return ()) _ _
      rw [wp_bind, wp_ext]
      exact fun r t hreload => hrestart w v t r rfl hw hrun hreload

/-- **The rule of a tick** with a carrier: what the quiet calls and the restart keep. -/
theorem wp_tickCarrier_rule (hw : I w) :
    wp (daemonEnv X) (tickCarrier mode iface cfg) (fun _ t => I t.2) (m, w) := by
  have hrefresh : (refreshLiveStatus iface).Within DaemonCall.Quiet fun _ => True := by
    simp [refreshLiveStatus, modifyMem, DaemonCall.Quiet, CtlCall.Quiet]
  have hrecord : ∀ v, (recordVerdict v).Within DaemonCall.Quiet fun _ => True := by
    intro v
    cases v <;> simp [recordVerdict, setHealth, modifyMem, readMem, DaemonCall.Quiet]
  unfold tickCarrier modifyMem
  rw [wp_bind, wp_bind, wp_mem, wp_ret, wp_pure, wp_bind]
  refine wp_mono (wp_quiet hkeep hrefresh hw) ?_
  rintro - ⟨m₁, u⟩ hu
  rw [wp_bind]
  refine wp_mono (wp_maybeSelfHeal_rule hkeep hrestart hu) ?_
  rintro - ⟨m₂, v⟩ hv
  refine wp_quiet hkeep ?_ hv
  simp only [within_bind]
  refine within_mono (fun _ h => h) (fun _ _ => ⟨trivial, fun c => ?_⟩) hrefresh
  cases mode with
  | gateway => exact ⟨trivial, fun _ => hrecord _⟩
  | client => exact ⟨trivial, fun _ => hrecord _⟩
  | static => exact hrecord _

end Tick

/-! ## Runs -/

/-- Where the dnsmasq comes from that runs as `pid` and has read `c`: from the last reload, or
from before the start. -/
def Supplies (paths : DhcpPaths) (g₀ : DhcpHost) (iface : String) (pid : Int) (c : Contents) :
    Option (Config × String) → Prop
  | none => g₀.Runs pid c
  | some (cfg, i) => cfg.Valid ∧ i = iface ∧ c = .text (confBody paths cfg i)

section Run
variable {ν : Type} {N : Env NetSig ν} {paths : DhcpPaths} {g₀ : DhcpHost}

/-- **What is known of dnsmasq** under a status of this mode and interface. -/
structure Supplied (paths : DhcpPaths) (g₀ : DhcpHost) (mode : Mode) (iface : String)
    (x : Noted ν) : Prop where
  /-- It is named by its pidfile and has read the conf. -/
  current : x.1.2.Current
  /-- It runs as a gateway, and where it comes from. -/
  source : ∀ pid c, x.1.2.Runs pid c →
    mode = .gateway ∧ Supplies paths g₀ iface pid c (lastReload x.2)

variable {mode : Mode} {iface : String} {cfg : Config} {x y : Noted ν} {m m' : Mem}

theorem Supplied.quiet (h : Supplied paths g₀ mode iface x) (hy : Quiet x y) :
    Supplied paths g₀ mode iface y := by
  refine ⟨hy.outlives.current, fun pid c hp => ?_⟩
  rw [hy.reload]
  exact h.source pid c (hy.outlives.runs pid c hp)

theorem Off.supplied (h : Off x) : Supplied paths g₀ mode iface x :=
  ⟨DhcpHost.Down.current h, fun pid c hp => absurd hp (h pid c)⟩

theorem Fed.supplied (h : Fed paths cfg iface x) (hcfg : cfg.Valid) :
    Supplied paths g₀ .gateway iface x := by
  refine ⟨h.1.1, fun pid c hp => ⟨rfl, ?_⟩⟩
  rw [h.2]
  exact ⟨hcfg, rfl, h.1.2 pid c hp⟩

/-- While the daemon waits, processes end and start, and the network may change. -/
def Waits (s t : ν × DhcpHost) : Prop := s.2.Drifts t.2

theorem quiet_wait (h : Waits x.1 y.1 ∧ y.2 = x.2) (hx : x.1.2.Current) : Quiet x y :=
  ⟨DhcpHost.Drifts.outlives h.1 hx, by rw [h.2]⟩

/-- An apply of a valid configuration. -/
theorem Supplied.applied (hm : m.Settled) (hcfg : cfg.Valid)
    (hx : Supplied paths g₀ m.status.mode m.status.iface x) {out : Except Error Status}
    (h : (applyWith cfg).run.Exec (ctlEnv N (LiveGateway.env paths)).logged x out y) :
    Supplied paths g₀ (m.applied out).status.mode (m.applied out).status.iface y := by
  have hpost := wpE_iff.mp (wpE_applyWith_fed hx.current) out y h
  cases out with
  | ok st =>
    rw [Mem.applied_ok_status hm.status_lock]
    rcases hpost with hoff | ⟨hmode, hfed⟩
    · exact hoff.supplied
    · rw [hmode]
      exact hfed.supplied hcfg
  | error e =>
    rw [Mem.applied_error_status]
    rcases hpost with hoff | hquiet
    · exact hoff.supplied
    · exact hx.quiet hquiet

theorem wp_tickCarrier_supplied (hcfg : cfg.Valid) (hx : Supplied paths g₀ mode iface x) :
    wp (daemonEnv (liveLog (ctlEnv N (LiveGateway.env paths)) Waits)) (tickCarrier mode iface cfg)
      (fun _ t => Supplied paths g₀ mode iface t.2) (m, x) := by
  refine wp_tickCarrier_rule (fun c u r v hc hu h => hu.quiet (quiet_step hc.tame hu.current h)) ?_
    hx
  rintro u v w r rfl hu hrun ⟨⟨hreload, -⟩, hlog⟩
  have hv := hu.quiet (quiet_step (c := .gw .dhcpRunning) rfl hu.current hrun)
  obtain ⟨-, hrunning⟩ := DhcpHost.running_cases hu.current hrun.1.1
  have hdown : v.1.2.Down := not_not.mp fun hn => Bool.false_ne_true (hrunning.mpr hn)
  obtain ⟨hok, herr⟩ := DhcpHost.reload_cases hv.current hreload
  cases r with
  | error e => exact Off.supplied ((herr rfl).2 hdown)
  | ok _ =>
    have hfed : Fed paths cfg iface w := by
      refine ⟨hok rfl, ?_⟩
      rw [lastReload, hlog, lastOf_append]
      rfl
    exact hfed.supplied hcfg

theorem Supplied.step (hm : m.Settled) {k : StepKind} {l : Log ExtSig (Noted ν)}
    (hx : Supplied paths g₀ m.status.mode m.status.iface x)
    (h : Stepped (liveLog (ctlEnv N (LiveGateway.env paths)) Waits) m x k l m' y) :
    Supplied paths g₀ m'.status.mode m'.status.iface y := by
  have hwait : ∀ {u v : Noted ν} {mode : Mode} {iface : String}, Supplied paths g₀ mode iface u →
      Waits u.1 v.1 ∧ v.2 = u.2 → Supplied paths g₀ mode iface v := by
    intro u v mode iface hu huv
    exact hu.quiet (quiet_wait huv hu.current)
  have hcarrier : ∀ {u v : Noted ν} {up : Bool}, Supplied paths g₀ m.status.mode m.status.iface u →
      (ctlEnv N (LiveGateway.env paths)).logged (.net (.carrierUp m.status.iface)) u up v →
      Supplied paths g₀ m.status.mode m.status.iface v := by
    intro u v up hu huv
    exact hu.quiet (quiet_step (c := .net (.carrierUp _)) trivial hu.current huv)
  cases h with
  | loaded hvalid hload happly =>
    exact Supplied.applied (hm.setConfig hvalid) hvalid (hwait hx hload) happly
  | rejected _ hload => exact hwait hx hload
  | reconfigured happly => exact Supplied.applied hm hm.valid hx happly
  | unnamed =>
    rw [Mem.record_status]
    exact hx
  | linked _ hup hnow hexec _ hm' =>
    have hz := hwait (hcarrier hx hup) hnow
    rw [hm', Mem.record_status, Mem.refresh_status (hm.setDownSince none).status_lock]
    exact wp_iff.mp (wp_tickCarrier_supplied hm.valid hz) () (m', y) hexec
  | unlinked _ hdown hnow _ =>
    rw [Mem.lose_status]
    exact hwait (hcarrier hx hdown) hnow
  | reselected _ hdown hnow _ happly =>
    refine Supplied.applied (hm.lose _) hm.valid ?_ happly
    rw [Mem.lose_status]
    exact hwait (hcarrier hx hdown) hnow

end Run

/-! ### A run -/

namespace LiveGateway

/-- A host on which everything succeeds, and a LAN where nobody offers a lease. -/
def handler (paths : DhcpPaths) : Handler GwSig DhcpHost
  | .dhcpRunning, s => Dhcp.isRunning.run (DhcpHost.handler true) s
  | .dhcpStop, s => Dhcp.stop.run.run (DhcpHost.handler true) s
  | .dhcpReloadOrRestart cfg iface, s =>
    (dhcpReloadOrRestart paths cfg iface).run.run (DhcpHost.handler true) s
  | .probeForeignDhcp _ _, s => (.ok false, s)

theorem handler_implements (paths : DhcpPaths) : (handler paths).Implements (env paths) := by
  intro c s
  cases c with
  | probeForeignDhcp iface timeout => exact .refl
  | _ => exact (DhcpHost.handler_implements true).exec _ _

end LiveGateway

end Micronet

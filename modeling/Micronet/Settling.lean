import Micronet.Stable
import Micronet.LiveDaemon

/-!
# The daemon in a stable environment

On a site where nothing else happens, the first apply that succeeds is the last one that
changes anything.  What it leaves (`Site.Kept`) is where a further apply ends and where its own
server or client runs, so that a tick with carrier finds nothing to restart.  Each step keeps
that (`Holding.step`), and so does every run (`settled_from_the_start`): requests, reloads of
the same file, and ticks, with or without carrier.
-/
namespace Micronet
open Interaction Prog Net

/-- The outside of a daemon on a site: its file holds `cfg`, or cannot be read. -/
def Site.ext (site : Site) (cfg : Config) : Env ExtSig Site.State
  | .loadJson, s, r, t | .loadOrCreateJson, s, r, t => (∀ c, r = .ok c → c = cfg) ∧ t = s
  | .apply c, s, r, t => (applyWith c).run.Exec site.env s r t
  | .ctl c, s, r, t => site.env c s r t
  | _, s, _, t => t = s

/-- The environment of a site does what its handler does. -/
theorem Site.env_graph (site : Site) (c : CtlCall) (s : Site.State) (r : c.Ret) (t : Site.State)
    (h : site.env c s r t) : site.ctl.graph c s r t := by
  obtain ⟨s, g⟩ := s
  obtain ⟨t, g'⟩ := t
  cases c with
  | net c =>
    obtain ⟨⟨hr, ht⟩, hg⟩ := h
    exact ⟨hr, Prod.ext ht hg⟩
  | gw c =>
    obtain ⟨⟨hr, hg⟩, ht⟩ := h
    exact ⟨hr, Prod.ext ht hg⟩

/-- So an execution there is the run. -/
theorem Site.run_of_exec {α : Type} {site : Site} {p : Prog CtlSig α} {s t : Site.State} {a : α}
    (h : p.Exec site.env s a t) : p.run site.ctl s = (a, t) :=
  Handler.exec_graph.mp (h.mono site.env_graph)

/-! ## What an apply leaves -/

/-- **What an apply keeps running**, in the state it has left. -/
structure Site.Kept (site : Site) (cfg : Config) (st : Status) (t : Site.State) : Prop where
  /-- The same apply returns the same and changes nothing. -/
  again : (applyWith cfg).run.run site.ctl t = (.ok st, t)
  /-- In gateway mode dnsmasq runs, in client mode the interface's dhclient. -/
  server : st.mode = .gateway → t.2.isSome = true
  client : st.mode = .client → t.1.1.dhclient st.iface = true
  /-- An address in the status is one that the interface shows. -/
  addressed : st.cidr.isSome = true → (firstInetCidr (t.1.1.addrsOf st.iface)).isSome = true

section Kept
variable {site : Site} {cfg : Config} {k : String} {n : Net} {l : Routes} {st : Status}
  {t : Site.State}

theorem isSome_firstInetCidr (h : n.addrsOf k ≠ []) :
    (firstInetCidr (n.addrsOf k)).isSome = true :=
  Option.isSome_iff_ne_none.mpr fun hnone => h (firstInetCidr_eq_none.mp hnone)

theorem withStatic_ne_nil : (n.withStatic cfg k).addrsOf k ≠ [] := by
  rw [withStatic_addrsOf]
  split
  · exact List.cons_ne_nil _ _
  · assumption

/-- Each mode keeps its own process, and the address that it reports. -/
theorem applyOffer_leaves {foreign : Bool} {d : Option (Config × String)}
    (h : (applyOffer cfg k foreign).run.run site.ctl ((n, l), d) = (.ok st, t)) :
    st.iface = k ∧ (st.mode = .gateway → t.2.isSome = true) ∧
      (st.mode = .client → t.1.1.dhclient k = true) ∧
      (st.cidr.isSome = true → (firstInetCidr (t.1.1.addrsOf k)).isSome = true) := by
  cases foreign with
  | true =>
    change (applyClient cfg k).run.run site.ctl _ = _ at h
    rw [run_applyClient] at h
    cases h
    refine ⟨rfl, by simp [Status.client], fun _ => by simp [Site.leased], fun hlease => ?_⟩
    rw [Site.leased, readdress_addrsOf, if_pos rfl]
    exact hlease
  | false =>
    change (applyLocal cfg k).run.run site.ctl _ = _ at h
    rw [run_applyLocal] at h
    cases hreach : site.reachable cfg (n.withStatic cfg k) with
    | true =>
      rw [hreach] at h
      change (applyStatic cfg k cfg.staticAddr).run.run site.ctl _ = _ at h
      rw [run_applyStatic] at h
      cases h
      exact ⟨rfl, by simp, by simp, fun _ => isSome_firstInetCidr withStatic_ne_nil⟩
    | false =>
      rw [hreach] at h
      change (applyGateway cfg k).run.run site.ctl _ = _ at h
      by_cases hhas : (n.withStatic cfg k).HasGateway cfg k
      · rw [run_applyGateway_of_has _ _ _ _ _ _ hhas] at h
        cases h
        exact ⟨rfl, fun _ => rfl, by simp [Status.gateway],
          fun _ => isSome_firstInetCidr hhas.ne_nil⟩
      · rw [run_applyGateway_of_not _ _ _ _ _ _ hhas] at h
        cases h
        have haddr : (((n.withStatic cfg k).flush k).addAddr k cfg.gatewayCidr).addrsOf k =
            [cfg.gatewayCidr] := addAddr_addrsOf_self _ _ _ (by simp)
        refine ⟨rfl, fun _ => rfl, by simp [Status.gateway], fun _ => ?_⟩
        rw [haddr, firstInetCidr_singleton]
        rfl

/-- **A successful apply keeps what it has set up.** -/
theorem kept_of_applied {s : Site.State} (hroutes : s.1.2.length ≤ 1)
    (h : (applyWith cfg).run.run site.ctl s = (.ok st, t)) : site.Kept cfg st t := by
  obtain ⟨hvalid, k, u, hres, hon⟩ := run_applyWith_eq_ok.mp h
  have hleft := left_isolateIface site k u s.1.2 s.2
  have hlen := (wp_iff.mp (wp_isolateIface_routes (s := ((u, s.1.2), s.2))) _ _
    ((site.ctl_implements_routed _).exec (isolateIface k) _)).1
  rw [run_applyOn] at hon
  generalize ((isolateIface k).run site.ctl ((u, s.1.2), s.2)).2 = v at hleft hlen hon
  obtain ⟨rfl, hserver, hclient, haddressed⟩ := applyOffer_leaves hon
  refine ⟨?_, hserver, hclient, haddressed⟩
  -- the state before the probe is the isolated one, with the interface set up and idle
  have hprobed : site.Left st.iface u s.1.2
      ((v.1.1.setUp st.iface true).setDhclient st.iface false, v.1.2) := by
    have hup := hleft.staysOn (F := fun _ => False) (G := site.gw.graph)
      (o := .net (.bringUp st.iface)) (s := v) (t := ((v.1.1.setUp st.iface true, v.1.2), v.2)) rfl
      ⟨Or.inl ⟨⟨rfl, rfl⟩, rfl⟩, rfl⟩
    exact hup.staysOn (F := fun _ => False) (G := site.gw.graph)
      (o := .net (.stopDhclient st.iface)) (s := ((v.1.1.setUp st.iface true, v.1.2), v.2))
      (t := (((v.1.1.setUp st.iface true).setDhclient st.iface false, v.1.2), v.2)) rfl
      ⟨Or.inl ⟨⟨rfl, rfl⟩, rfl⟩, rfl⟩
  obtain ⟨hend, hup⟩ := left_applyOffer
    (v := (((v.1.1.setUp st.iface true).setDhclient st.iface false, v.1.2), none))
    (site.offer st.iface) hprobed (by simp) hon
  obtain ⟨u', hres', hiso⟩ := (rests_of_left hres hend).again hup t.2
  have hback : ((isolateIface st.iface).run site.ctl ((u', t.1.2), t.2)).2 = t :=
    wp_iff.mp hiso _ _ (site.ctl_implements.exec _ _)
  refine run_applyWith_eq_ok.mpr ⟨hvalid, st.iface, u', hres', ?_⟩
  rw [run_applyOn, hback, setUp_self hup]
  exact applyOffer_again (by simp) (hlen ▸ (List.length_filter_le _ _).trans hroutes) hon

end Kept

/-! ## The daemon afterwards -/

/-- The daemon holds what the apply has left, under its status; the address and the server's
flag of the status are those read last. -/
structure Holding (cfg : Config) (st : Status) (t : Site.State) (m : Mem) (w : Site.State) :
    Prop where
  /-- The outside is as the apply left it. -/
  outside : w = t
  /-- The configuration and what the status says of the mode are as they were. -/
  config : m.config = cfg
  mode : m.status.mode = st.mode
  iface : m.status.iface = st.iface
  foreignDhcp : m.status.foreignDhcp = st.foreignDhcp
  gatewayReachable : m.status.gatewayReachable = st.gatewayReachable
  /-- With an interface and an address the health is good. -/
  health : st.iface ≠ "" → st.cidr.isSome = true → m.health = .ok

section Holding
variable {site : Site} {cfg : Config} {st : Status} {t : Site.State} {m m' : Mem}
  {w w' : Site.State}

/-- Every further apply ends where the first one did. -/
theorem Site.Kept.apply (hk : site.Kept cfg st t) {out : Except Error Status}
    (h : (applyWith cfg).run.Exec site.env t out w') : out = .ok st ∧ w' = t := by
  have hrun := Site.run_of_exec h
  rw [show (applyWith cfg).run.run site.ctl t = (.ok st, t) from hk.again] at hrun
  exact ⟨(Prod.mk.inj hrun).1.symm, (Prod.mk.inj hrun).2.symm⟩

theorem holding_adopted (hm : m.Settled) (hcfg : m.config = cfg) :
    Holding cfg st t (m.applied (.ok st)) t := by
  have hstatus : (m.applied (.ok st)).status = st := Mem.applied_ok_status hm.status_lock st
  refine ⟨rfl, (Mem.applied_config _).trans hcfg, ?_, ?_, ?_, ?_, fun _ _ => ?_⟩
  · rw [hstatus]
  · rw [hstatus]
  · rw [hstatus]
  · rw [hstatus]
  · exact Mem.noteHealth_ok hm.health_lock

/-- Nothing is restarted: what the mode needs runs. -/
theorem Site.Kept.running (hk : site.Kept cfg st t) {Q : Bool → Mem × Site.State → Prop}
    (hQ : Q true (m, t)) :
    wp (daemonEnv (site.ext cfg)) (modeProcRunning st.mode st.iface) Q (m, t) := by
  unfold modeProcRunning
  cases hmode : st.mode with
  | gateway =>
    refine wp_ext.mpr ?_
    rintro r w ⟨⟨rfl, hd⟩, hn⟩
    obtain rfl : w = t := Prod.ext hn hd
    rw [wp_ret]
    change Q w.2.isSome (m, w)
    rw [hk.server hmode]
    exact hQ
  | client =>
    refine wp_ext.mpr ?_
    rintro r w ⟨⟨rfl, hn⟩, hd⟩
    obtain rfl : w = t := Prod.ext hn hd
    rw [wp_ret]
    change Q (w.1.1.dhclient st.iface) (m, w)
    rw [hk.client hmode]
    exact hQ
  | static => exact hQ

theorem wp_refresh_site {Q : Unit → Mem × Site.State → Prop}
    (hQ : Q () (m.refresh (firstInetCidr (t.1.1.addrsOf st.iface)) t.2.isSome, t)) :
    wp (daemonEnv (site.ext cfg)) (refreshLiveStatus st.iface) Q (m, t) := by
  refine wp_refreshLiveStatus.mpr ?_
  rintro c w ⟨⟨rfl, hn⟩, hd⟩ d w' ⟨⟨rfl, hd'⟩, hn'⟩
  obtain rfl : w = t := Prod.ext hn hd
  obtain rfl : w' = w := Prod.ext hn' hd'
  exact hQ

/-- **A tick with carrier** only reads. -/
theorem Site.Kept.tickCarrier (hk : site.Kept cfg st t) :
    wp (daemonEnv (site.ext cfg)) (tickCarrier st.mode st.iface cfg) (fun _ u =>
      u.2 = t ∧ u.1 = ((m.setDownSince none).refresh (firstInetCidr (t.1.1.addrsOf st.iface))
        t.2.isSome).record (assess st.mode true
          (firstInetCidr (t.1.1.addrsOf st.iface)).isSome true)) (m, t) := by
  have hheal : healAction st.mode true = .none := by cases st.mode <;> rfl
  unfold Micronet.tickCarrier modifyMem maybeSelfHeal
  rw [wp_bind, wp_bind, wp_mem, wp_ret, wp_pure, wp_bind]
  refine wp_refresh_site ?_
  rw [wp_bind, wp_bind]
  refine hk.running ?_
  rw [hheal]
  refine wp_bind.mpr (wp_refresh_site ?_)
  rw [Mem.refresh_refresh]
  refine wp_bind.mpr (wp_ext.mpr ?_)
  rintro c w ⟨⟨rfl, hn⟩, hd⟩
  obtain rfl : w = t := Prod.ext hn hd
  refine wp_bind.mpr (hk.running ?_)
  exact wp_recordVerdict.mpr ⟨rfl, rfl⟩

/-- **Every step keeps what the daemon holds.** -/
theorem Holding.step (hm : m.Settled) (hk : site.Kept cfg st t) (hh : Holding cfg st t m w)
    {k : StepKind} {l : Log ExtSig Site.State} (h : Stepped (site.ext cfg) m w k l m' w') :
    Holding cfg st t m' w' := by
  obtain rfl : w = t := hh.outside
  have hlose (now : Instant) : Holding cfg st w (m.lose now) w := by
    refine ⟨rfl, (Mem.lose_config now).trans hh.config, ?_, ?_, ?_, ?_,
      fun _ _ => hm.lose_health now⟩
    · rw [Mem.lose_status, hh.mode]
    · rw [Mem.lose_status, hh.iface]
    · rw [Mem.lose_status, hh.foreignDhcp]
    · rw [Mem.lose_status, hh.gatewayReachable]
  cases h with
  | loaded hvalid hload happly =>
    obtain ⟨hcfg, rfl⟩ := hload
    obtain rfl := hcfg _ rfl
    obtain ⟨rfl, rfl⟩ := hk.apply happly
    exact holding_adopted (hm.setConfig hvalid) (Mem.setConfig_config hm.config_lock _)
  | rejected _ hload =>
    obtain ⟨-, rfl⟩ := hload
    exact hh
  | reconfigured happly =>
    rw [hh.config] at happly
    obtain ⟨rfl, rfl⟩ := hk.apply happly
    exact holding_adopted hm hh.config
  | unnamed hiface =>
    refine ⟨rfl, (Mem.record_config _).trans hh.config, ?_, ?_, ?_, ?_, fun hne _ => ?_⟩
    · rw [Mem.record_status, hh.mode]
    · rw [Mem.record_status, hh.iface]
    · rw [Mem.record_status, hh.foreignDhcp]
    · rw [Mem.record_status, hh.gatewayReachable]
    · exact absurd (hh.iface.symm.trans hiface) hne
  | @linked _ _ w₂ _ _ _ _ _ _ hup hnow hexec _ _ =>
    obtain ⟨⟨-, hn⟩, hd⟩ := hup
    have hsame : w₂ = w := hnow.trans (Prod.ext hn hd)
    rw [hh.mode, hh.iface, hh.config, hsame] at hexec
    obtain ⟨houtside, hm'⟩ := wp_iff.mp hk.tickCarrier () (m', w') hexec
    dsimp only at houtside hm'
    have hsettled := (hm.setDownSince none).refresh (firstInetCidr (w.1.1.addrsOf st.iface))
      w.2.isSome
    have hstatus := Mem.refresh_status (hm.setDownSince none).status_lock
      (firstInetCidr (w.1.1.addrsOf st.iface)) w.2.isSome
    have hrecorded : m'.status = { m.status with
        cidr := firstInetCidr (w.1.1.addrsOf st.iface), dnsmasqRunning := w.2.isSome } := by
      rw [hm', Mem.record_status, hstatus, Mem.setDownSince_status]
    refine ⟨houtside, ?_, ?_, ?_, ?_, ?_, fun _ haddr => ?_⟩
    · rw [hm', Mem.record_config, Mem.refresh_config, Mem.setDownSince_config, hh.config]
    · rw [hrecorded, hh.mode]
    · rw [hrecorded, hh.iface]
    · rw [hrecorded, hh.foreignDhcp]
    · rw [hrecorded, hh.gatewayReachable]
    · have hhealthy : assess st.mode true
          (firstInetCidr (w.1.1.addrsOf st.iface)).isSome true = .healthy := by
        rw [hk.addressed haddr]
        cases st.mode <;> rfl
      rw [hm', hhealthy]
      exact Mem.noteHealth_ok (hsettled.setStreak 0).health_lock
  | unlinked _ hdown hnow _ =>
    obtain ⟨⟨-, hn⟩, hd⟩ := hdown
    obtain rfl := hnow.trans (Prod.ext hn hd)
    exact hlose _
  | reselected _ hdown hnow _ happly =>
    obtain ⟨⟨-, hn⟩, hd⟩ := hdown
    obtain rfl := hnow.trans (Prod.ext hn hd)
    rw [hh.config] at happly
    obtain ⟨rfl, rfl⟩ := hk.apply happly
    exact holding_adopted (hm.lose _) ((Mem.lose_config _).trans hh.config)

end Holding

/-- **A daemon on a stable site settles with its first apply.**  If that succeeds (`happly`), from
a state with at most one default route (`hroutes`), then in every run nothing that follows changes
the links, the addresses, the default routes or the server: not a request, not a reload of the
same file, not a tick or the re-selections of one without carrier.  The status keeps its mode, its
interface and its flags, and if it has an address the daemon is reported healthy for good; an
interface has a name. -/
theorem settled_from_the_start (site : Site) (cfg : Config) {s₀ t : Site.State}
    (hroutes : s₀.1.2.length ≤ 1) {st : Status}
    (happly : (applyWith cfg).run.run site.ctl s₀ = (.ok st, t)) {h : List (Record Site.State)}
    {s : Mem × Site.State} (hrun : Run (site.ext cfg) s₀ h s) :
    s.2 = t ∧ s.1.config = cfg ∧ s.1.status.mode = st.mode ∧ s.1.status.iface = st.iface ∧
      s.1.status.foreignDhcp = st.foreignDhcp ∧
      s.1.status.gatewayReachable = st.gatewayReachable ∧
      (st.iface ≠ "" → st.cidr.isSome = true → s.1.health = .ok) := by
  have hk := kept_of_applied hroutes happly
  have hholding : Holding cfg st t s.1 s.2 := by
    refine hrun.invariant (I := fun m w => Holding cfg st t m w) ?_ ?_ ?_ ?_
    · rintro c w₁ out w₂ ⟨hc, rfl⟩ - hout
      obtain rfl := hc c rfl
      have hfirst := Site.run_of_exec hout
      rw [show (applyWith c).run.run site.ctl w₁ = (.ok st, t) from happly] at hfirst
      obtain ⟨rfl, rfl⟩ := Prod.mk.inj hfirst
      exact ⟨rfl, rfl, rfl, rfl, rfl, rfl, fun _ _ => rfl⟩
    · rintro m w w' hh ⟨c, r, hc, hX⟩
      have hsame : w' = w := by
        cases c with
        | apply c => exact hc.elim
        | ctl c => exact hc.elim
        | loadJson => exact hc.elim
        | loadOrCreateJson => exact hc.elim
        | _ => exact hX
      rw [hsame]
      exact hh
    · exact fun m w _ hh => ⟨hh.outside, hh.config, hh.mode, hh.iface, hh.foreignDhcp,
        hh.gatewayReachable, hh.health⟩
    · exact fun m w k l m' w' hm hh hstep => hh.step hm hk hstep
  exact ⟨hholding.outside, hholding.config, hholding.mode, hholding.iface, hholding.foreignDhcp,
    hholding.gatewayReachable, hholding.health⟩

theorem Site.ext_implements (site : Site) (cfg : Config) :
    (liveHandler site.ctl (.ok cfg)).Implements (site.ext cfg) := by
  intro c s
  cases c with
  | apply c => exact site.ctl_implements.exec _ _
  | ctl c => exact site.ctl_implements c s
  | loadJson => exact ⟨fun _ h => (Except.ok.inj h).symm, rfl⟩
  | loadOrCreateJson => exact ⟨fun _ h => (Except.ok.inj h).symm, rfl⟩
  | _ => exact rfl

/-- The two Ethernets, with a default route through another interface. -/
def twoDownStart : Site.State := ((twoDown, [{ dev := "wlan0" }]), none)

/-- The first apply sets up the one with the cable, and four steps later it is still so. -/
theorem twoDown_settled :
    ∃ st t, (applyWith {}).run.run emptySite.ctl twoDownStart = (.ok st, t) ∧
      ∃ h s, Run (emptySite.ext {}) twoDownStart h s ∧ h.length = 4 ∧ s.2 = t ∧
        s.1.health = .ok := by
  have hstart : (boots (liveHandler emptySite.ctl (.ok {})) twoDownStart).1 = .ok () := by
    decide +kernel
  have hrun := run_of_handler (emptySite.ext_implements {}) hstart
    [.tick, .reconfigure, .reload, .tick]
  have hreported : (((applyWith {}).run.run emptySite.ctl twoDownStart).1.toOption.any
      fun st => decide (st.iface ≠ "") && st.cidr.isSome) = true := by decide +kernel
  obtain ⟨⟨out, t⟩, hfirst⟩ : ∃ r, (applyWith {}).run.run emptySite.ctl twoDownStart = r := ⟨_, rfl⟩
  rw [hfirst] at hreported
  cases out with
  | error e => cases hreported
  | ok st =>
    have hnamed : st.iface ≠ "" ∧ st.cidr.isSome = true := by
      simpa [Except.toOption] using hreported
    have hsettled := settled_from_the_start emptySite {} (by decide) hfirst hrun
    exact ⟨st, t, hfirst, _, _, hrun, by simp [records], hsettled.1,
      hsettled.2.2.2.2.2.2 hnamed.1 hnamed.2⟩

end Micronet

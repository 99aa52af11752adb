import Micronet.ApplyAddress
import Micronet.Dhclients
import Micronet.Resolution
import Micronet.Routes

/-!
# Apply in a stable environment

A `Site` is what an apply meets and does not change: which interfaces have a cable, what
a probe and dhclient get on each, and who answers a ping.  A second apply finds what the
first one left: the others are down, so that the same interface is resolved
(`Site.Rests`), and every mode takes its own result to itself.  So applying twice is
applying once (`apply_idempotent`).
-/
namespace Micronet
open Interaction Prog Net

/-- What stays the same between two applies. -/
structure Site where
  /-- A cable with a link at its other end. -/
  cable : String → Bool
  /-- A foreign DHCP server answers the probe. -/
  offer : String → Bool
  /-- The addresses that dhclient gets. -/
  lease : String → List Ipv4Net
  /-- The default route that it gets. -/
  router : String → Option Ipv4Addr
  /-- With these addresses held, a host answers a ping. -/
  answers : List (String × Ipv4Net) → Ipv4Addr → Bool

namespace Site

/-- An interface that is down shows no carrier. -/
def lan (site : Site) : Lan :=
  { carrier := fun s i => s.up i && site.cable i, pings := fun s => site.answers s.addrs,
    lease := site.lease }

/-- A dnsmasq serves the configuration and the interface it was started with. -/
def gw (site : Site) : Handler GwSig (Option (Config × String))
  | .dhcpRunning, d => (d.isSome, d)
  | .dhcpStop, _ => (.ok (), none)
  | .dhcpReloadOrRestart cfg i, _ => (.ok (), some (cfg, i))
  | .probeForeignDhcp i _, d => (.ok (site.offer i), d)

/-- Links and addresses, the default routes, and the dnsmasq. -/
abbrev State : Type := (Net × Routes) × Option (Config × String)

def ctl (site : Site) : Handler CtlSig State := ctlHandler (site.lan.routed site.router) site.gw

/-- The environment that computes as the handler does. -/
def env (site : Site) : Env CtlSig State :=
  ctlEnv (site.lan.routed site.router).graph site.gw.graph

theorem ctl_implements (site : Site) : site.ctl.Implements site.env :=
  ctlHandler_implements (Handler.implements_graph _) (Handler.implements_graph _)

theorem ctl_implements_routed (site : Site) (F : NetCall → Prop) :
    site.ctl.Implements (ctlEnv (Net.routed F) site.gw.graph) :=
  ctlHandler_implements (site.lan.routed_implements site.router F) (Handler.implements_graph _)

end Site

/-- The default routes forgotten. -/
theorem routed_forget {γ : Type} {G : Env GwSig γ} {F : NetCall → Prop} (op : CtlCall)
    (s : (Net × Routes) × γ) (r : op.Ret) (t : (Net × Routes) × γ)
    (h : ctlEnv (Net.routed F) G op s r t) :
    ctlEnv (Net.env F) G op (s.1.1, s.2) r (t.1.1, t.2) := by
  cases op with
  | gw c => exact ⟨h.1, (congrArg Prod.fst h.2 :)⟩
  | net c =>
    obtain ⟨⟨hnet, _⟩ | ⟨hF, herr, ht⟩, hg⟩ := h
    · exact ⟨Or.inl hnet, hg⟩
    · exact ⟨Or.inr ⟨hF, herr, (congrArg Prod.fst ht :)⟩, hg⟩

theorem Exec.forgetRoutes {α γ : Type} {G : Env GwSig γ} {F : NetCall → Prop}
    {p : Prog CtlSig α} {s t : (Net × Routes) × γ} {a : α}
    (h : p.Exec (ctlEnv (Net.routed F) G) s a t) :
    p.Exec (ctlEnv (Net.env F) G) (s.1.1, s.2) a (t.1.1, t.2) :=
  h.map (f := fun s => (s.1.1, s.2)) routed_forget

/-- The carrier that is read. -/
def Site.carrier (site : Site) (n : Net) (i : String) : Bool := n.up i && site.cable i

/-- The automatic pick, and the network it leaves. -/
theorem Site.run_resolveAuto (site : Site) (n : Net) {fallback : String} {names : List String}
    (hlist : n.listError = none) (hnames : n.ethernets = fallback :: names) :
    (LiveNet.resolveAuto .live).run.run site.lan.sys n =
      match n.ethernets.find? (site.carrier n) with
      | some name => (.ok name, n)
      | none => (.ok ((n.ethernets.find? site.cable).getD fallback), n.setUpAll n.ethernets) := by
  have hcarrier : n.ethernets.find? (site.carrier (n.setUpAll n.ethernets)) =
      n.ethernets.find? site.cable :=
    List.find?_congr fun i hi => by simp [Site.carrier, setUpAll, hi]
  rw [← hcarrier]
  exact site.lan.run_resolveAuto n hlist hnames

/-! ## What an update leaves as it is -/

section Fixed
variable {n : Net} {i : String}

theorem Net.setUp_self (h : n.up i = true) : n.setUp i true = n := by
  unfold setUp
  rw [← h, Function.update_eq_self]

theorem Net.setDhclient_self (h : n.dhclient i = false) : n.setDhclient i false = n := by
  unfold setDhclient
  rw [← h, Function.update_eq_self]

theorem Net.flush_self (h : n.addrsOf i = []) : n.flush i = n := by
  have hkeep : n.addrs.filter (·.1 ≠ i) = n.addrs := by
    refine List.filter_eq_self.mpr fun a ha => decide_eq_true fun hi => ?_
    have hmem : a.2 ∈ n.addrsOf i := mem_addrsOf.mpr (hi ▸ ha)
    simp [h] at hmem
  unfold flush
  rw [hkeep]

theorem Routes.flush_self {l : Routes} (h : ∀ r ∈ l, r.dev ≠ i) : l.flush i = l :=
  List.filter_eq_self.mpr fun r hr => decide_eq_true (h r hr)

end Fixed

/-! ## Isolation of what is isolated -/

section Rest
variable {site : Site} {k : String} {l : Routes} {d : Option (Config × String)}

/-- An interface with nothing on it is taken down, if it is up, and nothing else happens. -/
theorem wp_isolateOne_rest {name : String} {n : Net}
    (h : name ≠ k → n.addrsOf name = [] ∧
      (n.up name = true → n.dhclient name = false ∧ ∀ r ∈ l, r.dev ≠ name)) :
    wp site.env (isolateOne k name) (fun _ t =>
      t = (({ n with up := fun i => if i = name ∧ i ≠ k then false else n.up i }, l), d))
      ((n, l), d) := by
  refine wp_isolateOne_of (f := Prod.fst) ?_ ?_ (fun hleft => ?_) fun hseen => ?_
  · rintro r t ⟨rfl, rfl⟩
    exact ⟨rfl, rfl⟩
  · rintro r t ⟨rfl, rfl⟩
    exact ⟨rfl, rfl⟩
  · -- left alone: it is the kept one, or it is down already
    have hsame : (fun i => if i = name ∧ i ≠ k then false else n.up i) = n.up := by
      funext i
      rcases hleft with rfl | ⟨hdown, -⟩
      · simp
      · change n.up name = false at hdown
        by_cases hi : i = name <;> simp [hi, hdown]
    rw [hsame]
  · have hk : name ≠ k := fun e => hseen (Or.inl e)
    have hup : n.up name = true := by
      by_contra hdown
      exact hseen (Or.inr ⟨Bool.eq_false_iff.mpr hdown, (h hk).1⟩)
    obtain ⟨haddr, hothers⟩ := h hk
    obtain ⟨hidle, hroutes⟩ := hothers hup
    -- of the three calls only the last one changes anything
    have hnet : ((n.setDhclient name false).flush name).setUp name false =
        { n with up := fun i => if i = name ∧ i ≠ k then false else n.up i } := by
      have hset : Function.update n.up name false =
          fun i => if i = name ∧ i ≠ k then false else n.up i := by
        funext i
        by_cases hi : i = name <;> simp [hi, hk]
      rw [setDhclient_self hidle, flush_self haddr, setUp, hset]
    have hl : (l.flush name).flush name = l := by
      rw [Routes.flush_self hroutes, Routes.flush_self hroutes]
    simp only [takeDown, wp_bind, wp_net, wp_ret, wp_pure]
    rintro _ _ ⟨rfl, rfl⟩ _ _ ⟨rfl, rfl⟩ _ _ ⟨rfl, rfl⟩
    exact congrArg (·, d) (Prod.ext hnet hl)

theorem wp_isolate_forM_rest {names : List String} {n : Net}
    (h : ∀ i ∈ names, i ≠ k → n.addrsOf i = [] ∧
      (n.up i = true → n.dhclient i = false ∧ ∀ r ∈ l, r.dev ≠ i)) :
    wp site.env (names.forM (isolateOne k)) (fun _ t =>
      t = (({ n with up := fun i => if i ∈ names ∧ i ≠ k then false else n.up i }, l), d))
      ((n, l), d) := by
  induction names generalizing n with
  | nil => simp
  | cons name names ih =>
    refine wp_bind.mpr (wp_mono (wp_isolateOne_rest (h name List.mem_cons_self)) ?_)
    rintro _ t rfl
    refine wp_mono (ih ?_) ?_
    · intro i hi hk
      obtain ⟨haddr, hidle⟩ := h i (List.mem_cons_of_mem _ hi) hk
      refine ⟨haddr, fun hup => hidle ?_⟩
      by_contra hdown
      simp [hdown] at hup
    · rintro _ t rfl
      have hup : (fun i => if i ∈ names ∧ i ≠ k then false
            else if i = name ∧ i ≠ k then false else n.up i) =
          fun i => if i ∈ name :: names ∧ i ≠ k then false else n.up i := by
        funext i
        by_cases hk : i = k
        · simp [hk]
        · by_cases hi : i = name
          · subst hi
            simp [hk]
          · simp [hk, hi]
      exact congrArg (fun up => ((({ n with up := up } : Net), l), d)) hup

end Rest

/-! ## The interface that is resolved again -/

namespace Site
variable (site : Site) (configured : Option String) (k : String) (n : Net) (l : Routes)

/-- Nothing of an earlier apply is left on the interface. -/
def Idle (i : String) : Prop := n.Skips i ∧ n.dhclient i = false ∧ ∀ r ∈ l, r.dev ≠ i

/-- **Where resolving and isolating `k` changes nothing**: `k` is pinned, or it is picked
for its cable, or as the first where no cable is. -/
inductive Rests : Prop
  | pinned (hname : configured = some k) (hpin : k ≠ LiveNet.autoIface) (hmem : k ∈ n.ethernets)
      (hothers : n.listError = none → ∀ i ∈ n.ethernets, i ≠ k → n.Skips i)
  | linked (hauto : Automatic configured) (hlist : n.listError = none) (hmem : k ∈ n.ethernets)
      (hcable : site.cable k = true) (hothers : ∀ i ∈ n.ethernets, i ≠ k → n.Skips i)
  | fallback (hauto : Automatic configured) (hlist : n.listError = none)
      (hhead : n.ethernets.head? = some k) (hcable : ∀ i ∈ n.ethernets, site.cable i = false)
      (hothers : ∀ i ∈ n.ethernets, i ≠ k → Idle n l i)

end Site

section Again
variable {site : Site} {configured : Option String} {k : String} {n : Net} {l : Routes}

theorem wp_isolateIface_rest {d : Option (Config × String)}
    (h : n.listError = none → ∀ i ∈ n.ethernets, i ≠ k → n.addrsOf i = [] ∧
      (n.up i = true → n.dhclient i = false ∧ ∀ r ∈ l, r.dev ≠ i)) :
    wp site.env (isolateIface k) (fun _ t => t = (({ n with up := fun i =>
      if n.listError = none ∧ i ∈ n.ethernets ∧ i ≠ k then false else n.up i }, l), d))
      ((n, l), d) := by
  unfold isolateIface
  refine wp_bind.mpr (wp_net.mpr ?_)
  rintro _ _ ⟨rfl, rfl⟩
  show wp site.env (match n.listing with | .ok names => _ | .error _ => _) _ ((n, l), d)
  have hset : ∀ up up' : String → Bool, up = up' →
      ((({ n with up := up } : Net), l), d) = (({ n with up := up' }, l), d) := by
    rintro up _ rfl
    rfl
  by_cases hlist : n.listError = none
  · have hlisting : n.listing = .ok n.ethernets := by simp [Net.listing, hlist]
    rw [hlisting]
    refine wp_mono (wp_isolate_forM_rest (h hlist)) ?_
    rintro _ t rfl
    refine hset _ _ (funext fun i => ?_)
    simp [hlist]
  · obtain ⟨e, he⟩ := Option.ne_none_iff_exists'.mp hlist
    have hlisting : n.listing = .error e := by simp [Net.listing, he]
    rw [hlisting]
    refine hset n.up _ (funext fun i => ?_)
    simp [hlist]

theorem find?_eq_some_of_only {α : Type} {p : α → Bool} {as : List α} {a : α} (ha : a ∈ as)
    (hp : p a = true) (honly : ∀ b ∈ as, b ≠ a → p b = false) : as.find? p = some a := by
  cases hfind : as.find? p with
  | none => exact absurd hp (List.find?_eq_none.mp hfind a ha)
  | some b =>
    by_contra hne
    have hpb := honly b (List.mem_of_find?_eq_some hfind) fun hb => hne (congrArg some hb)
    exact Bool.false_ne_true (hpb.symm.trans (List.find?_some hfind))

/-- **At rest**, the same interface is resolved, and isolation takes back what that did. -/
theorem Site.Rests.again (h : site.Rests configured k n l) (hup : n.up k = true)
    (d : Option (Config × String)) :
    ∃ u, (LiveNet.resolveIface configured).run.run site.lan.sys n = (.ok k, u) ∧
      wp site.env (isolateIface k) (fun _ t => t = ((n, l), d)) ((u, l), d) := by
  -- where the others are down already, isolation finds nothing to do
  have hquiet : (n.listError = none → ∀ i ∈ n.ethernets, i ≠ k → n.Skips i) →
      wp site.env (isolateIface k) (fun _ t => t = ((n, l), d)) ((n, l), d) := by
    intro hothers
    have hsame : (fun i => if n.listError = none ∧ i ∈ n.ethernets ∧ i ≠ k then false
        else n.up i) = n.up := by
      funext i
      split
      · rename_i hi
        exact (hothers hi.1 i hi.2.1 hi.2.2).1.symm
      · rfl
    refine wp_mono (wp_isolateIface_rest fun hlist i hi hk => ?_) ?_
    · obtain ⟨hdown, haddr⟩ := hothers hlist i hi hk
      exact ⟨haddr, fun hup => by simp [hdown] at hup⟩
    · rintro _ t rfl
      rw [hsame]
  cases h with
  | pinned hname hpin hmem hothers =>
    refine ⟨n, ?_, hquiet hothers⟩
    rw [hname, LiveNet.resolveIface, resolveIfaceWith_pinned hpin]
    show ((if decide (k ∈ n.ethernets) then _ else _ :
      ExceptT Error (Prog SysSig) String)).run.run site.lan.sys n = _
    rw [if_pos (decide_eq_true hmem)]
    rfl
  | linked hauto hlist hmem hcable hothers =>
    refine ⟨n, ?_, hquiet fun _ => hothers⟩
    obtain ⟨fallback, names, hnames⟩ := List.exists_cons_of_ne_nil (List.ne_nil_of_mem hmem)
    have hfind : n.ethernets.find? (site.carrier n) = some k := by
      refine find?_eq_some_of_only hmem (by simp [Site.carrier, hup, hcable]) fun i hi hk => ?_
      simp [Site.carrier, (hothers i hi hk).1]
    rw [LiveNet.resolveIface, resolveIfaceWith_auto hauto, site.run_resolveAuto n hlist hnames,
      hfind]
  | fallback hauto hlist hhead hcable hothers =>
    obtain ⟨names, hnames⟩ : ∃ names, n.ethernets = k :: names := by
      cases hnames : n.ethernets with
      | nil => simp [hnames] at hhead
      | cons i names => exact ⟨names, by simpa [hnames] using hhead⟩
    have hfind : ∀ p : String → Bool, (∀ i ∈ n.ethernets, p i = false) →
        n.ethernets.find? p = none :=
      fun p hp => List.find?_eq_none.mpr fun i hi => Bool.eq_false_iff.mp (hp i hi)
    refine ⟨n.setUpAll n.ethernets, ?_, ?_⟩
    · rw [LiveNet.resolveIface, resolveIfaceWith_auto hauto, site.run_resolveAuto n hlist hnames,
        hfind (site.carrier n) fun i hi => by simp [Site.carrier, hcable i hi],
        hfind site.cable hcable]
      rfl
    · refine wp_mono (wp_isolateIface_rest fun _ i hi hk => ?_) ?_
      · obtain ⟨⟨_, haddr⟩, hidle⟩ := hothers i hi hk
        exact ⟨haddr, fun _ => hidle⟩
      · rintro _ t rfl
        have hsame : (fun i => if n.listError = none ∧ i ∈ n.ethernets ∧ i ≠ k then false
            else n.up i || decide (i ∈ n.ethernets)) = n.up := by
          funext i
          by_cases hk : i = k
          · simp [hk, hup]
          · by_cases hi : i ∈ n.ethernets
            · simp [hlist, hi, hk, (hothers i hi hk).1.1]
            · simp [hi]
        exact congrArg (fun up => ((({ n with up := up } : Net), l), d)) hsame

end Again

/-! ## The modes, applied to what they have left -/

namespace Routes

theorem replace_replace (r : DefaultRoute) (l : Routes) :
    (l.replace r).replace r = l.replace r := by
  induction l with
  | nil => simp [replace]
  | cons x l ih =>
    by_cases hx : x.metric = r.metric
    · simp [replace, hx]
    · simp [replace, hx, ih]

theorem flush_flush (i : String) (l : Routes) : (l.flush i).flush i = l.flush i := by
  simp [flush]

end Routes

section Modes
variable (site : Site) (cfg : Config) (k : String) (n : Net) (l : Routes)
  (d : Option (Config × String))

theorem run_probeOn : (probeOn cfg k).run.run site.ctl ((n, l), d) =
    (.ok (site.offer k), ((n.setDhclient k false, l), none)) := by
  cases d <;> rfl

/-- What a lease makes of the network. -/
def Site.leased : Net := ((n.flush k).setDhclient k true).readdress k (site.lease k)

def Site.leasedRoutes : Routes :=
  l.flush k ++ (site.router k).toList.map fun gw => { dev := k, via := some gw }

/-- The status of client mode. -/
def Status.client (cidr : Option Ipv4Net) : Status :=
  { mode := .client, iface := k, cidr, foreignDhcp := true, gatewayReachable := false,
    dnsmasqRunning := false }

theorem run_applyClient : (applyClient cfg k).run.run site.ctl ((n, l), d) =
    (.ok (.client k (firstInetCidr (site.lease k))),
      ((site.leased k n, site.leasedRoutes k l), none)) := by
  have hruns : ((n.flush k).setDhclient k true).dhclient k = true := by simp
  -- the dhclient that has been started gives its lease
  show (Except.ok (Status.client k (firstInetCidr ((readdress k
      (if ((n.flush k).setDhclient k true).dhclient k then site.lease k
        else ((n.flush k).setDhclient k true).addrsOf k) ((n.flush k).setDhclient k true)).addrsOf
      k))),
    ((readdress k (if ((n.flush k).setDhclient k true).dhclient k then site.lease k
        else ((n.flush k).setDhclient k true).addrsOf k) ((n.flush k).setDhclient k true),
      if ((n.flush k).setDhclient k true).dhclient k then (l.flush k).flush k ++ _
      else l.flush k), none)) = _
  rw [if_pos hruns, if_pos hruns, readdress_addrsOf, if_pos rfl, Routes.flush_flush]
  rfl

theorem run_applyStatic (ip : Ipv4Addr) : (applyStatic cfg k ip).run.run site.ctl ((n, l), d) =
    (.ok { mode := .static, iface := k, cidr := some (.slash24 ip), foreignDhcp := false,
           gatewayReachable := true, dnsmasqRunning := false },
      ((n, l.replace { dev := k, via := some cfg.gateway.ip }), none)) := rfl

/-- The status of gateway mode. -/
def Status.gateway : Status :=
  { mode := .gateway, iface := k, cidr := some cfg.gatewayCidr, foreignDhcp := false,
    gatewayReachable := false, dnsmasqRunning := true }

theorem run_applyGateway_of_has (h : n.HasGateway cfg k) :
    (applyGateway cfg k).run.run site.ctl ((n, l), d) =
      (.ok (.gateway cfg k), ((n, l.tail), some (cfg, k))) := by
  refine (runE_bind_ok (a := firstInetCidr (n.addrsOf k)) rfl).trans ?_
  rw [h]
  show ((if some cfg.gatewayCidr ≠ some cfg.gatewayCidr then _ else _ : Act PUnit) >>=
    _).run.run site.ctl _ = _
  rw [if_neg (not_not.mpr rfl)]
  rfl

theorem run_applyGateway_of_not (h : ¬ n.HasGateway cfg k) :
    (applyGateway cfg k).run.run site.ctl ((n, l), d) = (.ok (.gateway cfg k),
      (((n.flush k).addAddr k cfg.gatewayCidr, (l.flush k).tail), some (cfg, k))) := by
  refine (runE_bind_ok (a := firstInetCidr (n.addrsOf k)) rfl).trans ?_
  show ((if firstInetCidr (n.addrsOf k) ≠ some cfg.gatewayCidr then _ else _ : Act PUnit) >>=
    _).run.run site.ctl _ = _
  rw [if_pos (show firstInetCidr (n.addrsOf k) ≠ some cfg.gatewayCidr from h)]
  rfl

theorem run_assignStatic : (assignStatic cfg k).run.run site.ctl ((n, l), d) =
    (.ok ⟨⟩, ((n.withStatic cfg k, l), d)) := by
  refine (runE_bind_ok (a := (firstInetCidr (n.addrsOf k)).isSome) rfl).trans ?_
  unfold withStatic
  by_cases hempty : n.addrsOf k = []
  · rw [firstInetCidr_eq_none.mpr hempty, if_pos hempty]
    rfl
  · have hsome : (firstInetCidr (n.addrsOf k)).isSome = true :=
      Option.isSome_iff_ne_none.mpr fun hnone => hempty (firstInetCidr_eq_none.mp hnone)
    rw [hsome, if_neg hempty]
    rfl

/-- The ping decides. -/
def Site.reachable : Bool := !n.isLocal cfg.gateway.ip && site.answers n.addrs cfg.gateway.ip

theorem run_askGateway : (askGateway cfg).run.run site.ctl ((n, l), d) =
    (.ok (site.reachable cfg n), ((n, l), d)) := by
  refine (runE_bind_ok (a := n.isLocal cfg.gateway.ip) rfl).trans ?_
  unfold Site.reachable
  cases n.isLocal cfg.gateway.ip <;> rfl

/-- Without an offer, the ping of the addressed interface decides the mode. -/
theorem run_applyLocal : (applyLocal cfg k).run.run site.ctl ((n, l), d) =
    (applyMode cfg k cfg.staticAddr
      (Mode.decide false (site.reachable cfg (n.withStatic cfg k)))).run.run site.ctl
      ((n.withStatic cfg k, l), d) := by
  unfold applyLocal
  rw [runE_bind_ok (run_assignStatic site cfg k n l d),
    runE_bind_ok (run_askGateway site cfg _ l d)]

/-! ### Each mode a second time -/

theorem leased_leased :
    site.leased k ((site.leased k n).setDhclient k false) = site.leased k n := by
  simp [Site.leased, readdress, flush, setDhclient, List.filter_map, Function.comp_def]

theorem leasedRoutes_leasedRoutes :
    site.leasedRoutes k (site.leasedRoutes k l) = site.leasedRoutes k l := by
  unfold Site.leasedRoutes
  cases site.router k <;> simp [Routes.flush]

variable {site cfg k n l d}

theorem withStatic_self (h : n.addrsOf k ≠ []) : n.withStatic cfg k = n := by
  rw [withStatic, if_neg h]

theorem withStatic_withStatic : (n.withStatic cfg k).withStatic cfg k = n.withStatic cfg k := by
  refine withStatic_self ?_
  rw [withStatic_addrsOf]
  split
  · exact List.cons_ne_nil _ _
  · assumption

@[simp] theorem withStatic_dhclient : (n.withStatic cfg k).dhclient = n.dhclient := by
  unfold withStatic
  split <;> simp

/-- The gateway address that is held is local, and not pinged. -/
theorem reachable_of_has (h : n.HasGateway cfg k) : site.reachable cfg n = false := by
  have hmem : (k, cfg.gatewayCidr) ∈ n.addrs := mem_addrsOf.mp (firstInetCidr_mem h)
  have hlocal : n.isLocal cfg.gateway.ip = true :=
    List.any_eq_true.mpr ⟨_, hmem, decide_eq_true rfl⟩
  simp [Site.reachable, hlocal]

theorem Net.HasGateway.ne_nil (h : n.HasGateway cfg k) : n.addrsOf k ≠ [] := by
  intro hempty
  unfold HasGateway at h
  rw [firstInetCidr_eq_none.mpr hempty] at h
  cases h

/-- **A mode on its own result**: with the dhclient and the dnsmasq stopped again, what
follows the probe leaves what it left. -/
theorem applyOffer_again {st : Status} {t : Site.State} (hidle : n.dhclient k = false)
    (hl : l.length ≤ 1)
    (h : (applyOffer cfg k (site.offer k)).run.run site.ctl ((n, l), none) = (.ok st, t)) :
    (applyOffer cfg k (site.offer k)).run.run site.ctl
      ((t.1.1.setDhclient k false, t.1.2), none) = (.ok st, t) := by
  cases hoffer : site.offer k with
  | true =>
    rw [hoffer] at h
    change (applyClient cfg k).run.run site.ctl _ = _ at h
    show (applyClient cfg k).run.run site.ctl _ = _
    rw [run_applyClient] at h ⊢
    cases h
    rw [leased_leased, leasedRoutes_leasedRoutes]
  | false =>
    rw [hoffer] at h
    change (applyLocal cfg k).run.run site.ctl _ = _ at h
    show (applyLocal cfg k).run.run site.ctl _ = _
    have hm : (n.withStatic cfg k).dhclient k = false := by rw [withStatic_dhclient, hidle]
    have htail : ∀ l' : Routes, l'.length ≤ 1 → l'.tail.tail = l'.tail := by
      intro l' hl'
      rw [List.eq_nil_of_length_eq_zero (l := l'.tail) (by rw [List.length_tail]; omega)]
      rfl
    rw [run_applyLocal] at h
    cases hreach : site.reachable cfg (n.withStatic cfg k) with
    | true =>
      rw [hreach] at h
      change (applyStatic cfg k cfg.staticAddr).run.run site.ctl _ = _ at h
      rw [run_applyStatic] at h
      cases h
      rw [setDhclient_self hm, run_applyLocal, withStatic_withStatic, hreach]
      show (applyStatic cfg k cfg.staticAddr).run.run site.ctl _ = _
      rw [run_applyStatic, Routes.replace_replace]
    | false =>
      rw [hreach] at h
      change (applyGateway cfg k).run.run site.ctl _ = _ at h
      by_cases hhas : (n.withStatic cfg k).HasGateway cfg k
      · rw [run_applyGateway_of_has _ _ _ _ _ _ hhas] at h
        cases h
        rw [setDhclient_self hm, run_applyLocal, withStatic_withStatic, hreach]
        show (applyGateway cfg k).run.run site.ctl _ = _
        rw [run_applyGateway_of_has _ _ _ _ _ _ hhas, htail l hl]
      · rw [run_applyGateway_of_not _ _ _ _ _ _ hhas] at h
        cases h
        -- the interface now has the gateway address, and no other
        have haddr : (((n.withStatic cfg k).flush k).addAddr k cfg.gatewayCidr).addrsOf k =
            [cfg.gatewayCidr] := addAddr_addrsOf_self _ _ _ (by simp)
        have hhas' :
            (((n.withStatic cfg k).flush k).addAddr k cfg.gatewayCidr).HasGateway cfg k := by
          unfold HasGateway
          rw [haddr, firstInetCidr_singleton]
        rw [setDhclient_self (by simp [hm]), run_applyLocal, withStatic_self hhas'.ne_nil,
          reachable_of_has hhas']
        show (applyGateway cfg k).run.run site.ctl _ = _
        have hflushed := htail (l.flush k) ((List.length_filter_le _ _).trans hl)
        rw [run_applyGateway_of_has _ _ _ _ _ _ hhas']
        simp only [hflushed]

end Modes

/-! ## The first apply -/

section First
variable {site : Site} {cfg : Config} {k : String} {n : Net} {l : Routes}
  {d : Option (Config × String)} {st : Status} {t : Site.State}

theorem run_applyOn (s : Site.State) : (applyOn cfg k).run.run site.ctl s =
    (applyOffer cfg k (site.offer k)).run.run site.ctl
      ((((((isolateIface k).run site.ctl s).2.1.1.setUp k true).setDhclient k false),
        ((isolateIface k).run site.ctl s).2.1.2), none) := by
  unfold applyOn seekOffer
  rw [bind_assoc, runE_bind_ok (runE_lift_eq_ok.mpr rfl), bind_assoc, runE_bind_ok rfl]
  exact runE_bind_ok (run_probeOn site cfg k _ _ _)

/-- An apply that returns has resolved an interface. -/
theorem run_applyWith_eq_ok : (applyWith cfg).run.run site.ctl ((n, l), d) = (.ok st, t) ↔
    cfg.validate = .ok () ∧ ∃ k u,
      (LiveNet.resolveIface cfg.interface).run.run site.lan.sys n = (.ok k, u) ∧
      (applyOn cfg k).run.run site.ctl ((u, l), d) = (.ok st, t) := by
  rw [applyWith_eq]
  constructor
  · intro h
    obtain ⟨_, s, hcfg, h⟩ := runE_bind_eq_ok.mp h
    obtain ⟨hvalid, rfl⟩ := Prod.mk.inj (hcfg : (cfg.validate, _) = _)
    obtain ⟨k, u, hres, h⟩ := runE_bind_eq_ok.mp h
    obtain ⟨hk, hu⟩ := Prod.mk.inj hres
    refine ⟨hvalid, k, u.1.1, Prod.ext hk ?_, ?_⟩
    · rw [← hu]
      rfl
    · rw [← hu] at h ⊢
      exact h
  · rintro ⟨hvalid, k, u, hres, h⟩
    refine runE_bind_eq_ok.mpr ⟨(), ((n, l), d), congrArg (·, _) hvalid, ?_⟩
    refine runE_bind_eq_ok.mpr ⟨k, ((u, l), d), ?_, h⟩
    exact congrArg (fun out : Except Error String × Net => (out.1, ((out.2, l), d))) hres

/-- What is known of the network after isolation and of what follows it. -/
structure Site.Left (site : Site) (k : String) (u : Net) (l : Routes) (t : Net × Routes) :
    Prop where
  /-- The listing is the one that isolation read. -/
  ethernets : t.1.ethernets = u.ethernets
  listError : t.1.listError = u.listError
  /-- If it could be read, isolation would pass over every Ethernet but `k`. -/
  others : u.listError = none → ∀ i ∈ u.ethernets, i ≠ k → t.1.Skips i
  /-- Of the others' dhclients only those that isolation overlooks are alive. -/
  dhclients : Reaped k u t.1
  /-- A default route through another interface was there before, and isolation let it be. -/
  routes : ∀ r ∈ t.2, r.dev ≠ k → r ∈ l ∧ u.Overlooks r.dev

/-- No call changes the listing. -/
theorem routed_listing {F : NetCall → Prop} {γ : Type} {G : Env GwSig γ} {op : CtlCall}
    {s t : (Net × Routes) × γ} {r : op.Ret} (h : ctlEnv (Net.routed F) G op s r t) :
    t.1.1.ethernets = s.1.1.ethernets ∧ t.1.1.listError = s.1.1.listError := by
  cases op with
  | gw c => simp [h.2]
  | net c =>
    rcases h.1 with ⟨hnet, _⟩ | ⟨_, _, hsame⟩
    · exact effect_listing hnet
    · simp [hsame]

theorem left_isolateIface (site : Site) (k : String) (u : Net) (l : Routes)
    (d : Option (Config × String)) :
    site.Left k u l ((isolateIface k).run site.ctl ((u, l), d)).2.1 := by
  have hexec : ∀ F, (isolateIface k).Exec (ctlEnv (Net.routed F) site.gw.graph) ((u, l), d)
      ((isolateIface k).run site.ctl ((u, l), d)).1 ((isolateIface k).run site.ctl ((u, l), d)).2 :=
    fun F => (site.ctl_implements_routed F).exec _ _
  have hlisting := (hexec fun _ => False).keeps (I := fun t : Site.State =>
    t.1.1.ethernets = u.ethernets ∧ t.1.1.listError = u.listError)
    (fun _ _ _ _ hI h => ⟨(routed_listing h).1.trans hI.1, (routed_listing h).2.trans hI.2⟩)
    ⟨rfl, rfl⟩
  refine ⟨hlisting.1, hlisting.2, fun hlist => ?_, ?_, fun r hr hk => ?_⟩
  · exact wp_iff.mp (wp_isolateIface_skips (s := (u, d)) (fun _ h => h.elim) hlist) _ _
      (Exec.forgetRoutes (hexec fun _ => False))
  · exact wp_iff.mp (wp_isolateIface_reaps (s := (u, d))) _ _ (Exec.forgetRoutes (hexec _))
  · rw [(wp_iff.mp wp_isolateIface_routes _ _ (hexec _)).1, List.mem_filter] at hr
    exact ⟨hr.1, (of_decide_eq_true hr.2).resolve_left hk⟩

/-- The call is on `k`, and so is the route that it sets. -/
def CtlCall.StaysOn (k : String) : CtlCall → Prop
  | .net (.replaceDefaultVia _ i) => i = k
  | op => op.OnlyOn k

theorem CtlCall.StaysOn.onlyOn {op : CtlCall} (h : op.StaysOn k) : op.OnlyOn k := by
  unfold StaysOn at h
  split at h
  · exact trivial
  · exact h

theorem Routes.mem_replace {r x : DefaultRoute} {l : Routes} (h : x ∈ l.replace r) :
    x = r ∨ x ∈ l := by
  induction l with
  | nil => exact Or.inl (List.mem_singleton.mp h)
  | cons y l ih =>
    unfold replace at h
    split at h
    · rcases List.mem_cons.mp h with rfl | h
      · exact Or.inl rfl
      · exact Or.inr (List.mem_cons_of_mem _ h)
    · rcases List.mem_cons.mp h with rfl | h
      · exact Or.inr List.mem_cons_self
      · exact (ih h).imp_right (List.mem_cons_of_mem _)

/-- It brings no route through another interface. -/
theorem staysOn_routes {c : NetCall} {n : Net} {s t : Routes}
    (hc : CtlCall.StaysOn k (.net c)) (h : Routes.Effect c n s t) :
    ∀ r ∈ t, r.dev ≠ k → r ∈ s := by
  intro r hr hk
  cases c
  case flushAddr i => exact (List.mem_filter.mp ((h : t = s.flush i) ▸ hr)).1
  case setDown i => exact (List.mem_filter.mp ((h : t = s.flush i) ▸ hr)).1
  case delDefault =>
    rcases h with ⟨_, rfl⟩ | ⟨a, x, b, rfl, rfl⟩
    · cases hr
    · simp only [List.mem_append, List.mem_cons] at hr ⊢
      exact hr.imp_right Or.inr
  case replaceDefaultVia gw i =>
    rw [(h : t = s.replace { dev := i, via := some gw })] at hr
    rcases Routes.mem_replace hr with rfl | hr
    · exact absurd hc hk
    · exact hr
  case waitIpv4 i d =>
    obtain rfl : i = k := hc
    have hkept : r ∈ t.flush i := List.mem_filter.mpr ⟨hr, decide_eq_true hk⟩
    rw [h.1] at hkept
    exact (List.mem_filter.mp hkept).1
  all_goals exact (h : t = s) ▸ hr

/-- What follows isolation is on `k`. -/
theorem Site.Left.staysOn {F : NetCall → Prop} {γ : Type} {G : Env GwSig γ} {u : Net} {l : Routes}
    {o : CtlCall} {s t : (Net × Routes) × γ} {r : o.Ret} (hop : o.StaysOn k)
    (hs : site.Left k u l s.1) (h : ctlEnv (Net.routed F) G o s r t) : site.Left k u l t.1 := by
  obtain ⟨heth, herr⟩ := routed_listing h
  have hframe : ∀ i, i ≠ k → Alike i s.1.1 t.1.1 := by
    cases o with
    | gw c => exact fun i _ => h.2 ▸ .refl i _
    | net c =>
      rcases h.1 with ⟨hnet, _⟩ | ⟨_, _, hsame⟩
      · exact (onlyOn_frame hop.onlyOn hnet).1
      · exact fun i _ => hsame ▸ .refl i _
  refine ⟨heth.trans hs.ethernets, herr.trans hs.listError, fun hlist i hi hk => ?_, ?_, ?_⟩
  · exact (hframe i hk).skips.mpr (hs.others hlist i hi hk)
  · exact hs.dhclients.frame fun i hk => (hframe i hk).2.2
  · intro x hx hk
    refine hs.routes x ?_ hk
    cases o with
    | gw c => exact h.2 ▸ hx
    | net c =>
      rcases h.1 with ⟨_, hroutes⟩ | ⟨_, _, hsame⟩
      · exact staysOn_routes hop hroutes x hx hk
      · exact hsame ▸ hx

theorem within_applyOffer_staysOn (foreign : Bool) :
    WithinE (CtlCall.StaysOn k) (fun _ => True) (applyOffer cfg k foreign) := by
  have hmode : ∀ mode, WithinE (CtlCall.StaysOn k) (fun _ => True)
      (applyMode cfg k cfg.staticAddr mode) := by
    intro mode
    cases mode <;>
      simp [applyMode, applyClient, applyStatic, applyGateway, CtlCall.StaysOn, CtlCall.OnlyOn]
  cases foreign
  · simp [applyOffer, applyLocal, assignStatic, askGateway, CtlCall.StaysOn, CtlCall.OnlyOn, hmode]
  · exact hmode .client

/-- **Where the first apply ends**, the chosen interface is up and the others are as
isolation left them. -/
theorem left_applyOffer {u : Net} {v : Site.State} (foreign : Bool)
    (hv : site.Left k u l v.1) (hup : v.1.1.up k = true)
    (h : (applyOffer cfg k foreign).run.run site.ctl v = (.ok st, t)) :
    site.Left k u l t.1 ∧ t.1.1.up k = true := by
  have hexec := (site.ctl_implements_routed fun _ => False).exec (applyOffer cfg k foreign).run v
  rw [h] at hexec
  refine (wpE_iff.mp (wpE_within (I := fun t : Site.State =>
    site.Left k u l t.1 ∧ t.1.1.up k = true) ?_ (within_applyOffer_staysOn foreign) ⟨hv, hup⟩)
    _ _ hexec).2
  intro op s r t hop ⟨hs, hups⟩ hE
  refine ⟨hs.staysOn hop hE, ?_⟩
  cases op with
  | gw c => exact hE.2 ▸ hups
  | net c =>
    rcases hE.1 with ⟨hnet, _⟩ | ⟨_, _, hsame⟩
    · exact (onlyOn_frame hop.onlyOn hnet).2 hups
    · exact hsame ▸ hups

/-- The automatic pick has something to pick. -/
theorem resolveAuto_eq_ok {u : Net}
    (h : (LiveNet.resolveAuto .live).run.run site.lan.sys n = (.ok k, u)) :
    n.listError = none ∧ ∃ fallback names, n.ethernets = fallback :: names := by
  obtain ⟨names, s, hcall, h⟩ := runE_bind_eq_ok.mp h
  change (n.listing, n) = (.ok names, s) at hcall
  obtain ⟨hlist, rfl⟩ := Prod.mk.inj hcall
  unfold Net.listing at hlist
  cases herr : n.listError with
  | some e => simp [herr] at hlist
  | none =>
    rw [herr] at hlist
    obtain rfl : n.ethernets = names := Except.ok.inj hlist
    cases hnames : n.ethernets with
    | nil =>
      rw [hnames] at h
      cases h
    | cons fallback names => exact ⟨rfl, fallback, names, rfl⟩

/-- **The first apply ends at rest.** -/
theorem rests_of_left {u : Net}
    (hres : (LiveNet.resolveIface cfg.interface).run.run site.lan.sys n = (.ok k, u))
    (ht : site.Left k u l t.1) : site.Rests cfg.interface k t.1.1 t.1.2 := by
  by_cases hauto : Automatic cfg.interface
  · rw [LiveNet.resolveIface, resolveIfaceWith_auto hauto] at hres
    obtain ⟨hlist, fallback, names, hnames⟩ := resolveAuto_eq_ok hres
    rw [site.run_resolveAuto n hlist hnames] at hres
    have hmem : ∀ p : String → Bool, ∀ i, n.ethernets.find? p = some i → i ∈ n.ethernets :=
      fun p i h => List.mem_of_find?_eq_some h
    cases hfind : n.ethernets.find? (site.carrier n) with
    | some name =>
      rw [hfind] at hres
      cases hres
      have hcable : site.cable k = true := by
        have := List.find?_some hfind
        simp only [Site.carrier, Bool.and_eq_true] at this
        exact this.2
      exact .linked hauto (ht.listError.trans hlist) (ht.ethernets ▸ hmem _ _ hfind) hcable
        (ht.ethernets ▸ ht.others hlist)
    | none =>
      rw [hfind] at hres
      obtain ⟨hk, rfl⟩ := Prod.mk.inj hres
      cases hcable : n.ethernets.find? site.cable with
      | some name =>
        rw [hcable] at hk
        cases hk
        exact .linked hauto (ht.listError.trans hlist) (ht.ethernets ▸ hmem _ _ hcable)
          (List.find?_some hcable) (ht.ethernets ▸ ht.others hlist)
      | none =>
        rw [hcable] at hk
        obtain rfl : fallback = k := Except.ok.inj hk
        -- every candidate was set up, so isolation has seen it
        have hseen : ∀ i ∈ n.ethernets, ¬ (n.setUpAll n.ethernets).Overlooks i := by
          intro i hi hover
          rcases hover with herr | hnot | ⟨hdown, _⟩
          · exact herr hlist
          · exact hnot hi
          · simp [setUpAll, hi] at hdown
        refine .fallback hauto (ht.listError.trans hlist) ?_ ?_ fun i hi hk => ?_
        · rw [ht.ethernets]
          exact hnames ▸ rfl
        · rw [ht.ethernets]
          exact fun i hi => Bool.eq_false_iff.mpr (List.find?_eq_none.mp hcable i hi)
        · rw [ht.ethernets] at hi
          refine ⟨ht.others hlist i hi hk, ?_, fun r hr hdev => ?_⟩
          · by_contra halive
            exact hseen i hi ((ht.dhclients i hk).mp (Bool.eq_true_of_not_eq_false halive)).2
          · exact hseen i hi (hdev ▸ (ht.routes r hr (hdev ▸ hk)).2)
  · obtain ⟨name, hname⟩ : ∃ name, cfg.interface = some name :=
      Option.ne_none_iff_exists'.mp fun hnone => hauto (Or.inl hnone)
    have hpin : name ≠ LiveNet.autoIface := fun he => hauto (Or.inr (he ▸ hname))
    rw [hname, LiveNet.resolveIface, resolveIfaceWith_pinned hpin] at hres
    change (if decide (name ∈ n.ethernets) then _ else _ :
      ExceptT Error (Prog SysSig) String).run.run site.lan.sys n = _ at hres
    by_cases hmem : name ∈ n.ethernets
    · rw [if_pos (decide_eq_true hmem)] at hres
      cases hres
      exact .pinned hname hpin (ht.ethernets ▸ hmem) fun herr =>
        ht.ethernets ▸ ht.others (ht.listError ▸ herr)
    · rw [if_neg (by simpa using hmem)] at hres
      cases hres

end First

/-! ## Twice is once -/

/-- **Apply is idempotent** on every site, for every configuration and every state with at
most one default route: where it returns a status, a second apply returns the same and
leaves the state as it is. -/
theorem apply_idempotent (site : Site) (cfg : Config) (s : Site.State) (hroutes : s.1.2.length ≤ 1)
    (st : Status) (t : Site.State) (h : (applyWith cfg).run.run site.ctl s = (.ok st, t)) :
    (applyWith cfg).run.run site.ctl t = (.ok st, t) := by
  obtain ⟨hvalid, k, u, hres, hon⟩ := run_applyWith_eq_ok.mp h
  have hleft := left_isolateIface site k u s.1.2 s.2
  have hlen := (wp_iff.mp (wp_isolateIface_routes (s := ((u, s.1.2), s.2))) _ _
    ((site.ctl_implements_routed _).exec (isolateIface k) _)).1
  rw [run_applyOn] at hon
  generalize ((isolateIface k).run site.ctl ((u, s.1.2), s.2)).2 = v at hleft hlen hon
  have hfirst : site.Left k u s.1.2 t.1 ∧ t.1.1.up k = true := by
    have hup := hleft.staysOn (F := fun _ => False) (G := site.gw.graph) (o := .net (.bringUp k))
      (s := v) (t := ((v.1.1.setUp k true, v.1.2), v.2)) rfl ⟨Or.inl ⟨⟨rfl, rfl⟩, rfl⟩, rfl⟩
    have hstop := hup.staysOn (F := fun _ => False) (G := site.gw.graph)
      (o := .net (.stopDhclient k)) (s := ((v.1.1.setUp k true, v.1.2), v.2))
      (t := (((v.1.1.setUp k true).setDhclient k false, v.1.2), v.2)) rfl
      ⟨Or.inl ⟨⟨rfl, rfl⟩, rfl⟩, rfl⟩
    exact left_applyOffer (v := (((v.1.1.setUp k true).setDhclient k false, v.1.2), none))
      (site.offer k) hstop (by simp) hon
  have hagain := applyOffer_again (by simp)
    (hlen ▸ (List.length_filter_le _ _).trans hroutes) hon
  -- the second apply
  obtain ⟨u', hres', hiso⟩ := (rests_of_left hres hfirst.1).again hfirst.2 t.2
  refine run_applyWith_eq_ok.mpr ⟨hvalid, k, u', hres', ?_⟩
  have hback : ((isolateIface k).run site.ctl ((u', t.1.2), t.2)).2 = t :=
    wp_iff.mp hiso _ _ (site.ctl_implements.exec _ _)
  rw [run_applyOn, hback, setUp_self hfirst.2]
  exact hagain

/-- The cable is in `eth1`, and nobody answers. -/
def emptySite : Site :=
  { cable := fun i => i = "eth1", offer := fun _ => false, lease := fun _ => [],
    router := fun _ => none, answers := fun _ _ => false }

/-- Two Ethernets that are down. -/
def twoDown : Net :=
  { ethernets := ["eth0", "eth1"], up := fun _ => false, addrs := [], dhclient := fun _ => false }

/-- The first apply sets both up to find the cable, the second finds it at once. -/
theorem twoDown_idempotent :
    let first := (applyWith {}).run.run emptySite.ctl ((twoDown, [{ dev := "wlan0" }]), none)
    ∃ st, first.1 = .ok st ∧ st.iface = "eth1" ∧ st.mode = .gateway ∧
      (applyWith {}).run.run emptySite.ctl first.2 = (.ok st, first.2) :=
  ⟨_, rfl, by decide, by decide,
    apply_idempotent emptySite {} ((twoDown, [{ dev := "wlan0" }]), none) (by decide) _ _ rfl⟩

end Micronet

import Micronet.Isolation

/-!
# The default routes

A machine can have any number of default routes: through links that micronet does not
manage, or of several metrics.  Gateway mode and teardown delete one (`ip route del
default`), and a flush takes those of its interface.  So no default route is left
exactly if at most one is out of reach of the flushes (`no_default_route_iff`).
-/
namespace Micronet
open Interaction Prog Net

variable {γ : Type} {G : Env GwSig γ}

/-- A default route. -/
structure DefaultRoute where
  /-- The interface it leads through. -/
  dev : String
  via : Option Ipv4Addr := none
  metric : Nat := 0
deriving DecidableEq, Repr

/-- The default routes of the routing table, in its order. -/
abbrev Routes : Type := List DefaultRoute

namespace Routes

def flush (i : String) (l : Routes) : Routes := l.filter (·.dev ≠ i)

/-- `ip route replace`: in the place of the first of its metric. -/
def replace (r : DefaultRoute) : Routes → Routes
  | [] => [r]
  | x :: l => if x.metric = r.metric then r :: l else x :: replace r l

/-- One of them is removed, if there is one. -/
def Removed (s t : Routes) : Prop := s = [] ∧ t = [] ∨ ∃ a r b, s = a ++ r :: b ∧ t = a ++ b

theorem removed_nil_iff {s t : Routes} (h : Removed s t) : t = [] ↔ s.length ≤ 1 := by
  rcases h with ⟨rfl, rfl⟩ | ⟨a, r, b, rfl, rfl⟩
  · simp
  · rw [← List.length_eq_zero_iff]
    simp only [List.length_append, List.length_cons]
    omega

/-- What a call that succeeds does with them. -/
def Effect : NetCall → Net → Routes → Routes → Prop
  | .flushAddr i, _, s, t | .setDown i, _, s, t => t = s.flush i
  | .delDefault, _, s, t => Removed s t
  | .replaceDefaultVia gw i, _, s, t => t = s.replace { dev := i, via := some gw }
  -- dhclient sets those of its interface
  | .waitIpv4 i _, n, s, t => t.flush i = s.flush i ∧ (n.dhclient i = false → t = s)
  | _, _, s, t => t = s

end Routes

/-- The calls that take routes away, and the listing. -/
def NetCall.unroutes : NetCall → Bool
  | .listEthernet | .flushAddr _ | .delDefault => true
  | _ => false

/-- A network with its default routes; the calls of `F` may fail instead. -/
def Net.routed (F : NetCall → Prop) : Env NetSig (Net × Routes) :=
  fun c s r t => (Effect c s.1 r t.1 ∧ Routes.Effect c s.1 s.2 t.2) ∨ F c ∧ c.isErr r ∧ t = s

/-- The same, where moreover the unchecked calls of `U` may do nothing and report success. -/
def Net.routedSlack (F : NetCall → Prop) (U : NetCall → Net → Prop) :
    Env NetSig (Net × Routes) :=
  fun c s r t => Net.routed F c s r t ∨ c.unchecked ∧ U c s.1 ∧ c.isErr r = false ∧ t = s

/-! ## The flushes of isolation -/

section Isolation

theorem wp_takeDown_routes {name : String} {s : (Net × Routes) × γ} :
    wp (ctlEnv (Net.routed fun c => ¬ c.unroutes) G) (takeDown name)
      (fun _ t => t.1.2 = s.1.2.flush name ∧ ∀ i, i ≠ name → Alike i s.1.1 t.1.1) s := by
  simp only [takeDown, wp_bind, wp_net, wp_ret, wp_pure]
  intro r t hstop r' u hflush r'' v hdown
  have ht : t.2 = s.1.2 ∧ ∀ i, i ≠ name → Alike i s.1.1 t.1 := by
    rcases hstop with ⟨⟨_, hnet⟩, hroutes⟩ | ⟨_, _, rfl⟩
    · exact ⟨hroutes, fun i hi => by simp [hnet, Alike, hi]⟩
    · exact ⟨rfl, fun i _ => .refl i _⟩
  obtain ⟨⟨_, hnet⟩, hroutes⟩ := hflush.resolve_right fun h => h.1 rfl
  have hu : u.2 = s.1.2.flush name ∧ ∀ i, i ≠ name → Alike i s.1.1 u.1 := by
    refine ⟨hroutes.trans (by rw [ht.1]), fun i hi => (ht.2 i hi).trans ?_⟩
    simp [hnet, Alike, hi]
  rcases hdown with ⟨⟨_, hnet'⟩, hroutes'⟩ | ⟨_, _, rfl⟩
  · refine ⟨hroutes'.trans ?_, fun i hi => (hu.2 i hi).trans ?_⟩
    · rw [hu.1]
      simp [Routes.flush]
    · simp [hnet', Alike, hi]
  · exact hu

/-- The loop over `names` takes the routes through what it takes down. -/
theorem wp_isolate_forM_routes {keep : String} {names : List String} {s : (Net × Routes) × γ} :
    wp (ctlEnv (Net.routed fun c => ¬ c.unroutes) G) (names.forM (isolateOne keep)) (fun _ t =>
      t.1.2 = s.1.2.filter (fun r => r.dev = keep ∨ r.dev ∉ names ∨ s.1.1.Skips r.dev) ∧
        Alike keep s.1.1 t.1.1) s := by
  induction names generalizing s with
  | nil => exact ⟨(List.filter_eq_self.mpr (by simp)).symm, .refl keep _⟩
  | cons name names ih =>
    refine wp_bind.mpr (wp_isolateOne_of (f := Prod.fst) ?_ ?_ (fun hleft => ?_) fun hseen => ?_)
    · intro r t h
      obtain ⟨⟨hr, hnet⟩, hroutes⟩ := h.resolve_right fun h => by simp [NetCall.isErr] at h
      exact ⟨hr, Prod.ext hnet hroutes⟩
    · intro r t h
      obtain ⟨⟨hr, hnet⟩, hroutes⟩ := h.resolve_right fun h => by simp [NetCall.isErr] at h
      exact ⟨hr, Prod.ext hnet hroutes⟩
    · -- `name` is left alone: it is kept, or down and without an address
      refine wp_mono ih ?_
      rintro _ t ⟨hroutes, halike⟩
      refine ⟨hroutes.trans ?_, halike⟩
      refine List.filter_congr fun r _ => decide_eq_decide.mpr ?_
      by_cases hr : r.dev = name
      · rw [hr]
        exact iff_of_true (hleft.imp_right Or.inr) (hleft.imp_right Or.inr)
      · simp [hr]
    · -- `name` is taken down, and its routes go with it
      refine wp_mono wp_takeDown_routes ?_
      rintro _ u ⟨hflushed, hothers⟩
      refine wp_mono ih ?_
      rintro _ t ⟨hroutes, halike⟩
      refine ⟨hroutes.trans ?_, (hothers keep ?_).trans halike⟩
      · rw [hflushed, Routes.flush, List.filter_filter]
        refine List.filter_congr fun r _ => ?_
        by_cases hr : r.dev = name
        · subst hr
          simpa using by tauto
        · simp [hr, (hothers r.dev hr).skips]
      · rintro rfl
        exact hseen (Or.inl rfl)

theorem wp_isolateIface_routes {keep : String} {s : (Net × Routes) × γ} :
    wp (ctlEnv (Net.routed fun c => ¬ c.unroutes) G) (isolateIface keep) (fun _ t =>
      t.1.2 = s.1.2.filter (fun r => r.dev = keep ∨ s.1.1.Overlooks r.dev) ∧
        Alike keep s.1.1 t.1.1) s := by
  unfold isolateIface
  rw [wp_bind, wp_net]
  intro r t h
  obtain ⟨⟨rfl, hnet⟩, hroutes⟩ := h.resolve_right fun h => h.1 rfl
  obtain rfl : t = s.1 := Prod.ext hnet hroutes
  rw [wp_ret]
  unfold Net.listing
  cases hlist : s.1.1.listError with
  | some e =>
    exact ⟨(List.filter_eq_self.mpr (by simp [Overlooks, hlist])).symm, .refl keep _⟩
  | none =>
    refine wp_mono wp_isolate_forM_routes fun _ t ⟨hroutes, halike⟩ => ⟨hroutes.trans ?_, halike⟩
    simp [Overlooks, hlist]

end Isolation

/-! ## Gateway mode -/

section Gateway
variable {cfg : Config} {k : String}

/-- The call leaves addresses and routes alone. -/
def CtlCall.Addressless : CtlCall → Prop
  | .gw _ | .net (.bringUp _) | .net (.stopDhclient _) | .net (.ipv4AddrIsLocal _)
  | .net (.ping _) => True
  | _ => False

theorem addressless_frame {F : NetCall → Prop} {op : CtlCall} {s t : (Net × Routes) × γ}
    {r : op.Ret} (hop : op.Addressless) (h : ctlEnv (Net.routed F) G op s r t) :
    t.1.2 = s.1.2 ∧ t.1.1.addrsOf k = s.1.1.addrsOf k := by
  cases op with
  | gw c => simp [h.2]
  | net c =>
    rcases h.1 with ⟨hnet, hroutes⟩ | ⟨_, _, hsame⟩
    · cases c <;> simp [CtlCall.Addressless] at hop
      case bringUp i => exact ⟨hroutes, by rw [hnet.2]; rfl⟩
      case stopDhclient i => exact ⟨hroutes, by rw [hnet.2]; rfl⟩
      case ipv4AddrIsLocal ip => exact ⟨hroutes, by rw [hnet.2]⟩
      case ping ip => exact ⟨hroutes, by rw [show t.1.1 = s.1.1 from hnet]⟩
    · simp [hsame]

/-- A part of apply that leaves them alone. -/
theorem wpE_addressless {α : Type} {x : Act α} {F : NetCall → Prop} {s : (Net × Routes) × γ}
    (hx : WithinE CtlCall.Addressless (fun _ => True) x) :
    wpE (ctlEnv (Net.routed F) G) x
      (fun _ t => t.1.2 = s.1.2 ∧ t.1.1.addrsOf k = s.1.1.addrsOf k) (fun _ _ => True) s := by
  refine wpE_mono (wpE_within (I := fun t : (Net × Routes) × γ =>
    t.1.2 = s.1.2 ∧ t.1.1.addrsOf k = s.1.1.addrsOf k) ?_ hx ⟨rfl, rfl⟩)
    (fun _ _ h => h.2) fun _ _ _ => trivial
  intro op u r v hop hu h
  obtain ⟨hroutes, haddr⟩ := addressless_frame (k := k) hop h
  exact ⟨hroutes.trans hu.1, haddr.trans hu.2⟩

/-- The interface has the gateway address already, and is not flushed for it. -/
def Net.HasGateway (s : Net) (cfg : Config) (k : String) : Prop :=
  firstInetCidr (s.addrsOf k) = some cfg.gatewayCidr

instance (s : Net) (cfg : Config) (k : String) : Decidable (s.HasGateway cfg k) :=
  inferInstanceAs (Decidable (_ = _))

/-- The static address is not the gateway's. -/
theorem wpE_assignStatic_routes (hvalid : cfg.Valid) {s : (Net × Routes) × γ} :
    wpE (ctlEnv (Net.routed fun c => ¬ c.unroutes) G) (assignStatic cfg k)
      (fun _ t => t.1.2 = s.1.2 ∧ (t.1.1.HasGateway cfg k ↔ s.1.1.HasGateway cfg k))
      (fun _ _ => True) s := by
  unfold assignStatic
  rw [wpE_bind, wpE_lift, wp_net]
  intro has t h
  obtain ⟨⟨rfl, hnet⟩, hroutes⟩ := h.resolve_right fun h => by simp [NetCall.isErr] at h
  obtain rfl : t = s.1 := Prod.ext hnet hroutes
  rw [wp_ret, wpE_ite]
  refine ⟨fun _ => ⟨rfl, Iff.rfl⟩, fun hnone => ?_⟩
  have hempty : s.1.1.addrsOf k = [] := by
    rwa [Option.not_isSome_iff_eq_none, firstInetCidr_eq_none] at hnone
  rw [wpE_mk, wp_net]
  rintro r u (⟨⟨rfl, hnet⟩, hroutes⟩ | ⟨_, herr, rfl⟩)
  · refine ⟨hroutes, ?_⟩
    have hne : cfg.staticCidr ≠ cfg.gatewayCidr := by
      simpa [Config.staticCidr, Config.gatewayCidr, Ipv4Net.slash24] using hvalid.staticAddr_ne
    simp [HasGateway, hnet, addAddr_addrsOf_self _ _ _ hempty, firstInetCidr_singleton, hne,
      hempty, firstInetCidr_eq_none.mpr rfl]
  · obtain ⟨e, rfl⟩ := isErr_iff.mp herr
    exact trivial

/-- What is left of the routes, once the interface has been flushed or not. -/
theorem wpE_applyGateway_routes {s : (Net × Routes) × γ} :
    wpE (ctlEnv (Net.routed fun c => ¬ c.unroutes) G) (applyGateway cfg k)
      (fun _ t => t.1.2 = [] ↔
        (s.1.2.filter fun r => r.dev = k → s.1.1.HasGateway cfg k).length ≤ 1)
      (fun _ _ => True) s := by
  -- the default route is deleted last, by one `ip route del default`
  have hfinish : ∀ u : (Net × Routes) × γ,
      u.1.2 = s.1.2.filter (fun r => r.dev = k → s.1.1.HasGateway cfg k) →
      wpE (ctlEnv (Net.routed fun c => ¬ c.unroutes) G) (do
          attempt NetOps.delDefault
          attempt (GatewayCtl.dhcpReloadOrRestart cfg k)
          let dnsmasqRunning ← GatewayCtl.dhcpRunning
          return { mode := .gateway, iface := k, cidr := some cfg.gatewayCidr, foreignDhcp := false,
                   gatewayReachable := false, dnsmasqRunning : Status })
        (fun _ t => t.1.2 = [] ↔
          (s.1.2.filter fun r => r.dev = k → s.1.1.HasGateway cfg k).length ≤ 1)
        (fun _ _ => True) u := by
    intro u hu
    rw [wpE_bind, wpE_mk, wp_net]
    intro r v hdel
    obtain ⟨⟨rfl, _⟩, hremoved⟩ := hdel.resolve_right fun h => h.1 rfl
    have hv := Routes.removed_nil_iff hremoved
    rw [hu] at hv
    rw [wp_ret, post_ok, wpE_bind, wpE_mk, wp_gw]
    intro r g _
    cases r with
    | error e => exact trivial
    | ok _ =>
      rw [wp_ret, post_ok, wpE_bind, wpE_lift, wp_gw]
      exact fun _ _ _ => hv
  unfold applyGateway
  rw [wpE_bind, wpE_lift, wp_net]
  intro cidr t h
  obtain ⟨⟨rfl, hnet⟩, hroutes⟩ := h.resolve_right fun h => by simp [NetCall.isErr] at h
  obtain rfl : t = s.1 := Prod.ext hnet hroutes
  rw [wp_ret, wpE_bind, wpE_ite]
  refine ⟨fun hother => ?_, fun hhas => ?_⟩
  · rw [wpE_bind, wpE_mk, wp_net]
    intro r u hflush
    obtain ⟨⟨rfl, hu⟩, hflushed⟩ := hflush.resolve_right fun h => h.1 rfl
    rw [wp_ret, post_ok, wpE_mk, wp_net]
    rintro r v (⟨⟨rfl, _⟩, hkept⟩ | ⟨_, herr, rfl⟩)
    · refine hfinish _ ((hkept.trans hflushed).trans ?_)
      refine List.filter_congr fun r _ => decide_eq_decide.mpr ?_
      simp [HasGateway, hother]
    · obtain ⟨e, rfl⟩ := isErr_iff.mp herr
      exact trivial
  · refine hfinish _ (List.filter_eq_self.mpr fun r _ => ?_).symm
    exact decide_eq_true fun _ => not_not.mp hhas

theorem wpE_applyLocal_routes (hvalid : cfg.Valid) {s : (Net × Routes) × γ} :
    wpE (ctlEnv (Net.routed fun c => ¬ c.unroutes) G) (applyLocal cfg k)
      (fun st t => st.mode = .gateway → (t.1.2 = [] ↔
        (s.1.2.filter fun r => r.dev = k → s.1.1.HasGateway cfg k).length ≤ 1))
      (fun _ _ => True) s := by
  unfold applyLocal
  rw [wpE_bind]
  refine wpE_mono (wpE_assignStatic_routes hvalid) ?_ fun _ _ h => h
  rintro _ t ⟨ht, hhas⟩
  rw [wpE_bind]
  refine wpE_mono (wpE_addressless (k := k) (by simp [askGateway, CtlCall.Addressless])) ?_
    fun _ _ h => h
  rintro reachable u ⟨hu, haddr⟩
  have hkeep : u.1.1.HasGateway cfg k ↔ s.1.1.HasGateway cfg k := by
    unfold HasGateway at *
    rw [haddr]
    exact hhas
  cases reachable with
  | true =>
    -- the static mode promises nothing here
    have hmode : WithinE (fun _ => True) (fun st => st.mode = .static)
        (applyStatic cfg k cfg.staticAddr) := by simp [applyStatic]
    refine wpE_iff.mpr fun r v h => ?_
    cases r with
    | ok st =>
      intro hgw
      rw [hmode.value h] at hgw
      cases hgw
    | error e => exact trivial
  | false =>
    refine wpE_mono wpE_applyGateway_routes (fun _ v hv _ => ?_) fun _ _ h => h
    simpa only [hu, ht, hkeep] using hv

theorem wpE_applyOn_routes (hvalid : cfg.Valid) {s : (Net × Routes) × γ} :
    wpE (ctlEnv (Net.routed fun c => ¬ c.unroutes) G) (applyOn cfg k)
      (fun st t => st.mode = .gateway → (t.1.2 = [] ↔ (s.1.2.filter fun r =>
        if r.dev = k then s.1.1.HasGateway cfg k else s.1.1.Overlooks r.dev).length ≤ 1))
      (fun _ _ => True) s := by
  unfold applyOn seekOffer
  rw [bind_assoc, wpE_bind, wpE_lift]
  refine wp_mono wp_isolateIface_routes fun _ t ⟨hleft, halike⟩ => ?_
  rw [bind_assoc, wpE_bind]
  refine wpE_mono (wpE_addressless (k := k) (by simp [CtlCall.Addressless])) ?_ fun _ _ h => h
  intro _ u ⟨hu, haddru⟩
  rw [wpE_bind]
  refine wpE_mono (wpE_addressless (k := k) (by simp [probeOn, CtlCall.Addressless])) ?_
    fun _ _ h => h
  intro foreign v ⟨hv, haddrv⟩
  cases foreign with
  | true =>
    have hmode : WithinE (fun _ => True) (fun st => st.mode = .client) (applyClient cfg k) := by
      simp [applyClient]
    refine wpE_iff.mpr fun r w h => ?_
    cases r with
    | ok st =>
      intro hgw
      rw [hmode.value h] at hgw
      cases hgw
    | error e => exact trivial
  | false =>
    refine wpE_mono (wpE_applyLocal_routes hvalid) (fun st w hw hgw => (hw hgw).trans ?_)
      fun _ _ h => h
    rw [hv, hu, hleft, List.filter_filter]
    refine iff_of_eq (congrArg (fun l : Routes => l.length ≤ 1) ?_)
    refine List.filter_congr fun r _ => ?_
    have hkeep : v.1.1.HasGateway cfg k ↔ s.1.1.HasGateway cfg k := by
      unfold HasGateway
      rw [haddrv, haddru, halike.2.1]
    by_cases hr : r.dev = k <;> simp [hr, hkeep]

end Gateway

/-! ## Teardown -/

section Teardown

theorem wp_flushOne_routes {name : String} {s : (Net × Routes) × γ} :
    wp (ctlEnv (Net.routed fun c => ¬ c.unroutes) G) (flushOne name)
      (fun _ t => t.1.2 = s.1.2.flush name) s := by
  simp only [flushOne, wp_bind, wp_net, wp_ret, wp_pure]
  intro r t hstop r' u hflush
  have ht : t.2 = s.1.2 := by
    rcases hstop with ⟨_, hroutes⟩ | ⟨_, _, rfl⟩
    · exact hroutes
    · rfl
  rw [← ht]
  exact (hflush.resolve_right fun h => h.1 rfl).2

theorem wp_flushAllEthernet_routes {s : (Net × Routes) × γ} :
    wp (ctlEnv (Net.routed fun c => ¬ c.unroutes) G) flushAllEthernet (fun _ t =>
      t.1.2 = s.1.2.filter (fun r => s.1.1.listError ≠ none ∨ r.dev ∉ s.1.1.ethernets)) s := by
  have hloop : ∀ (names : List String) (u : (Net × Routes) × γ),
      wp (ctlEnv (Net.routed fun c => ¬ c.unroutes) G) (names.forM flushOne)
        (fun _ t => t.1.2 = u.1.2.filter (·.dev ∉ names)) u := by
    intro names
    induction names with
    | nil => exact fun u => (List.filter_eq_self.mpr (by simp)).symm
    | cons name names ih =>
      refine fun u => wp_bind.mpr (wp_mono wp_flushOne_routes fun _ v hv => ?_)
      refine wp_mono (ih v) fun _ t ht => ht.trans ?_
      rw [hv, Routes.flush, List.filter_filter]
      refine List.filter_congr fun r _ => ?_
      by_cases hr : r.dev = name <;> simp [hr]
  unfold flushAllEthernet
  rw [wp_bind, wp_net]
  intro r t h
  obtain ⟨⟨rfl, hnet⟩, hroutes⟩ := h.resolve_right fun h => h.1 rfl
  obtain rfl : t = s.1 := Prod.ext hnet hroutes
  rw [wp_ret]
  unfold Net.listing
  cases hlist : s.1.1.listError with
  | some e => exact (List.filter_eq_self.mpr (by simp)).symm
  | none => exact wp_mono (hloop _ _) fun _ t ht => ht.trans (by simp)

theorem wpE_teardownOn_routes {k : String} {s : (Net × Routes) × γ} :
    wpE (ctlEnv (Net.routed fun c => ¬ c.unroutes) G) (teardownOn k)
      (fun _ t => t.1.2 = [] ↔ (s.1.2.filter fun r =>
        s.1.1.listError ≠ none ∨ r.dev ∉ s.1.1.ethernets).length ≤ 1) (fun _ _ => True) s := by
  unfold teardownOn
  rw [wpE_bind, wpE_mk, wp_gw]
  intro r g _
  cases r with
  | error e => exact trivial
  | ok _ =>
  rw [wp_ret, post_ok, wpE_bind, wpE_lift]
  refine wp_mono wp_flushAllEthernet_routes fun _ t ht => ?_
  rw [wpE_bind, wpE_mk, wp_net]
  intro r u hdel
  obtain ⟨⟨rfl, _⟩, hremoved⟩ := hdel.resolve_right fun h => h.1 rfl
  have hu := Routes.removed_nil_iff hremoved
  rw [ht] at hu
  rw [wp_ret, post_ok, wpE_bind, wpE_lift, wp_gw]
  exact fun _ _ _ => hu

end Teardown

/-! ## No default route -/

/-- Resolution changes admin states only. -/
theorem routed_resolve {F : NetCall → Prop} {configured : Option String} {s t : Net × Routes}
    {r : Except Error String}
    (h : Net.routed F (.resolveIface configured) s r t ∨
      Net.routed F (.resolveIfacePassive configured) s r t) :
    ∃ up, t = ({ s.1 with up := up }, s.2) := by
  rcases h with (⟨hnet, hroutes⟩ | ⟨_, _, rfl⟩) | (⟨hnet, hroutes⟩ | ⟨_, _, rfl⟩)
  · obtain ⟨up, hup⟩ := effect_resolve (Or.inl hnet)
    exact ⟨up, Prod.ext hup hroutes⟩
  · exact ⟨t.1.up, rfl⟩
  · obtain ⟨up, hup⟩ := effect_resolve (Or.inr hnet)
    exact ⟨up, Prod.ext hup hroutes⟩
  · exact ⟨t.1.up, rfl⟩

/-- **When no default route is left**, for every routing table.  After an apply in gateway mode,
exactly if at most one default route was neither through an interface that isolation sees nor
through the chosen one without the gateway address; `up` are the links when isolation reads the
listing, some of which the resolution may have set up.  After a teardown, exactly if at most one
was through an interface that is not listed.  The listing, the flushes and the deletion do what
they say; anything else may fail. -/
theorem no_default_route_iff (cfg : Config) (s : Net) (l : Routes) (g : γ) :
    (∀ st t g' log, (applyWith cfg).run.Exec
        (ctlEnv (Net.routed fun c => ¬ c.unroutes) G).logged (((s, l), g), []) (.ok st)
        ((t, g'), log) → st.mode = .gateway →
      ∃ up, let u := { s with up := up }
        isolatedFrom log = some ((u, l), g) ∧
        (t.2 = [] ↔ (l.filter fun r => if r.dev = st.iface then u.HasGateway cfg st.iface
          else u.Overlooks r.dev).length ≤ 1)) ∧
    ∀ st t g', (teardownWith cfg).run.Exec (ctlEnv (Net.routed fun c => ¬ c.unroutes) G)
        ((s, l), g) (.ok st) (t, g') →
      (t.2 = [] ↔ (l.filter fun r => s.listError ≠ none ∨ r.dev ∉ s.ethernets).length ≤ 1) := by
  constructor
  · intro st t g' log happly hgw
    rcases exec_applyWith happly with ⟨e, he, _⟩ | ⟨k, ⟨u, gu⟩, seg, hvalid, ⟨hres, hgu⟩, rfl, hon⟩
    · cases he
    obtain ⟨up, rfl⟩ := routed_resolve (Or.inl hres)
    obtain rfl : gu = g := hgu
    obtain rfl := (within_applyOn_iface cfg k).value hon
    exact ⟨up, (isolatedFrom_applyOn hon :),
      wpE_iff.mp (wpE_applyOn_routes hvalid) _ _ hon.forget hgw⟩
  · intro st t g' h
    rw [teardownWith_eq, execE_bind] at h
    rcases h with ⟨_, u, hv, h⟩ | ⟨e, _, he⟩
    · obtain ⟨_, rfl⟩ := exec_ret.mp hv
      rw [execE_bind] at h
      rcases h with ⟨k, ⟨u, gu⟩, hres, h⟩ | ⟨e, _, he⟩
      · obtain ⟨up, rfl⟩ := routed_resolve (Or.inr (exec_call.mp hres).1)
        exact wpE_iff.mp wpE_teardownOn_routes _ _ h
      · cases he
    · cases he

/-! ### Runs -/

namespace Routes

/-- One way the calls go: the first default route is the one removed, and a dhclient sets
that of its lease. -/
def after (router : String → Option Ipv4Addr) : NetCall → Net → Routes → Routes
  | .flushAddr i, _, s | .setDown i, _, s => s.flush i
  | .delDefault, _, s => s.tail
  | .replaceDefaultVia gw i, _, s => s.replace { dev := i, via := some gw }
  | .waitIpv4 i _, n, s =>
    if n.dhclient i then s.flush i ++ (router i).toList.map fun gw => { dev := i, via := some gw }
    else s
  | _, _, s => s

theorem effect_after (router : String → Option Ipv4Addr) (c : NetCall) (n : Net) (s : Routes) :
    Effect c n s (s.after router c n) := by
  cases c with
  | delDefault =>
    cases s with
    | nil => exact Or.inl ⟨rfl, rfl⟩
    | cons r s => exact Or.inr ⟨[], r, s, rfl, rfl⟩
  | waitIpv4 i d =>
    refine ⟨?_, fun hidle => by simp [after, hidle]⟩
    show flush i (if n.dhclient i then _ else s) = s.flush i
    split
    · cases router i <;> simp [flush]
    · rfl
  | _ => exact rfl

end Routes

def Lan.routed (lan : Lan) (router : String → Option Ipv4Addr) : Handler NetSig (Net × Routes) :=
  fun c s => ((lan.net c s.1).1, (lan.net c s.1).2, s.2.after router c s.1)

theorem Lan.routed_implements (lan : Lan) (router : String → Option Ipv4Addr)
    (F : NetCall → Prop) : (lan.routed router).Implements (Net.routed F) := by
  intro c s
  have heffect := (lan.net_implements (fun _ => False) c s.1).resolve_right fun h => h.1
  exact Or.inl ⟨heffect, Routes.effect_after router c s.1 s.2⟩

/-- An apply of the default configuration without an offer, on an interface that has the
gateway address. -/
def applyRouted (l : Routes) :
    Except Error Status × ((Net × Routes) × Bool) × Log CtlSig ((Net × Routes) × Bool) :=
  (applyWith {}).run.run (ctlHandler (Lan.linked.routed fun _ => none)
      (Dnsmasq.handler (.ok false))).logged
    (((oneEthernet [.slash24 defaultGatewayIp], l), false), [])

def teardownRouted (l : Routes) : Except Error Status × (Net × Routes) × Bool :=
  (teardownWith {}).run.run
    (ctlHandler (Lan.linked.routed fun _ => none) (Dnsmasq.handler (.ok false)))
    ((oneEthernet [.slash24 defaultGatewayIp], l), false)

theorem exec_applyRouted (l : Routes) :
    (applyWith {}).run.Exec (ctlEnv (Net.routed fun c => ¬ c.unroutes) Dnsmasq.env).logged
      (((oneEthernet [.slash24 defaultGatewayIp], l), false), [])
      (applyRouted l).1 (applyRouted l).2 :=
  ((ctlHandler_implements (Lan.routed_implements _ _ _)
    (Dnsmasq.handler_implements _)).logged).exec _ _

theorem exec_teardownRouted (l : Routes) :
    (teardownWith {}).run.Exec (ctlEnv (Net.routed fun c => ¬ c.unroutes) Dnsmasq.env)
      ((oneEthernet [.slash24 defaultGatewayIp], l), false)
      (teardownRouted l).1 (teardownRouted l).2 :=
  (ctlHandler_implements (Lan.routed_implements _ _ _) (Dnsmasq.handler_implements _)).exec _ _

/-- A default route through the wireless link is deleted, as is one through `eth0`. -/
theorem wireless_default_removed :
    (applyRouted [{ dev := "wlan0" }]).2.1.1.2 = [] ∧
      (teardownRouted [{ dev := "eth0" }, { dev := "wlan0" }]).2.1.2 = [] := by
  have happly := (no_default_route_iff (G := Dnsmasq.env) {}
    (oneEthernet [.slash24 defaultGatewayIp]) [{ dev := "wlan0" }] false).1 _ _ _ _
    (exec_applyRouted _) rfl
  have hteardown := (no_default_route_iff (G := Dnsmasq.env) {}
    (oneEthernet [.slash24 defaultGatewayIp]) [{ dev := "eth0" }, { dev := "wlan0" }] false).2 _ _ _
    (exec_teardownRouted _)
  obtain ⟨_, _, hiff⟩ := happly
  exact ⟨hiff.mpr (List.length_filter_le _ _), hteardown.mpr (by decide)⟩

/-- **Of two, one is left**, in gateway mode and after teardown. -/
theorem second_default_left :
    let l : Routes := [{ dev := "wlan0" }, { dev := "wlan0", metric := 600 }]
    (∃ st, (applyRouted l).1 = .ok st ∧ st.mode = .gateway) ∧
      (applyRouted l).2.1.1.2 = [{ dev := "wlan0", metric := 600 }] ∧
      (∃ st, (teardownRouted l).1 = .ok st) ∧
      (teardownRouted l).2.1.2 = [{ dev := "wlan0", metric := 600 }] ∧
      (applyWith {}).run.Exec (ctlEnv (Net.routed fun c => ¬ c.unroutes) Dnsmasq.env).logged
        (((oneEthernet [.slash24 defaultGatewayIp], l), false), [])
        (applyRouted l).1 (applyRouted l).2 ∧
      (teardownWith {}).run.Exec (ctlEnv (Net.routed fun c => ¬ c.unroutes) Dnsmasq.env)
        ((oneEthernet [.slash24 defaultGatewayIp], l), false)
        (teardownRouted l).1 (teardownRouted l).2 :=
  ⟨⟨_, rfl, rfl⟩, by decide, ⟨_, rfl⟩, by decide, exec_applyRouted _, exec_teardownRouted _⟩

end Micronet

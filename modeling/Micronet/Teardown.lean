import Micronet.Machine

/-!
# Teardown

Teardown stops the DHCP server, the dhclients and flushes every physical Ethernet,
but first it resolves an interface, which it needs for nothing but the status it
returns.  So it is complete exactly where that resolution succeeds.
-/
namespace Micronet
open Interaction Prog Net

/-- Nothing is left on a physical Ethernet. -/
def Net.Clean (s : Net) : Prop := ∀ i ∈ s.ethernets, s.addrsOf i = [] ∧ s.dhclient i = false

/-- The automatic pick has something to pick. -/
def Net.AutoResolvable (s : Net) : Prop := s.listError = none ∧ s.ethernets ≠ []

/-- Passive resolution succeeds: a pinned name is a physical Ethernet, and the
automatic pick has one. -/
def Net.Resolvable (s : Net) : Option String → Prop
  | none => s.AutoResolvable
  | some name => if name = LiveNet.autoIface then s.AutoResolvable else name ∈ s.ethernets

/-! ## Passive resolution -/

section Passive
variable {s : Net}

theorem wp_findCarrier (names : List String) :
    wp sysEnv (LiveNet.findCarrier names) (fun _ t => t = s) s := by
  induction names with
  | nil => exact rfl
  | cons name names ih =>
    simp only [LiveNet.findCarrier, wp_bind, wp_op, wp_ret, wp_ite]
    intro b t ht
    obtain rfl : s = t := ht.symm
    exact ⟨fun _ => rfl, fun _ => ih⟩

theorem wpE_resolveAuto :
    wpE sysEnv (LiveNet.resolveAuto .none) (fun _ t => t = s ∧ s.AutoResolvable)
      (fun _ t => t = s ∧ ¬ s.AutoResolvable) s := by
  unfold LiveNet.resolveAuto
  rw [wpE_bind, wpE_mk, wp_op]
  intro r t ⟨hr, ht⟩
  obtain rfl : s = t := ht.symm
  unfold Net.listing at hr
  cases hlist : s.listError with
  | some e =>
    rw [hlist] at hr
    obtain rfl : r = .error e := hr
    exact ⟨rfl, fun h => by simp [AutoResolvable, hlist] at h⟩
  | none =>
    rw [hlist] at hr
    obtain rfl : r = .ok s.ethernets := hr
    rw [wp_ret, post_ok]
    cases heth : s.ethernets with
    | nil => exact ⟨rfl, fun h => h.2 heth⟩
    | cons fallback names =>
      have hauto : s.AutoResolvable := ⟨hlist, by simp [heth]⟩
      show wpE sysEnv (_ >>= _) _ _ s
      rw [wpE_bind, wpE_lift]
      refine wp_mono (wp_findCarrier _) fun found t ht => ?_
      obtain rfl : s = t := ht.symm
      cases found with
      | some name => exact ⟨rfl, hauto⟩
      | none => exact ⟨rfl, hauto⟩

/-- **Passive resolution** changes nothing, and succeeds exactly where the state
says so. -/
theorem wpE_resolveIfacePassive (configured : Option String) :
    wpE sysEnv (LiveNet.resolveIfacePassive configured)
      (fun _ t => t = s ∧ s.Resolvable configured)
      (fun _ t => t = s ∧ ¬ s.Resolvable configured) s := by
  unfold LiveNet.resolveIfacePassive LiveNet.resolveIfaceWith Resolvable
  cases configured with
  | none => exact wpE_resolveAuto
  | some name =>
    by_cases hname : name = LiveNet.autoIface
    · simp only [hname, if_true]
      exact wpE_resolveAuto
    · simp only [hname, if_false]
      unfold LiveNet.resolvePinned
      rw [wpE_bind, wpE_lift, wp_op]
      intro r t ⟨hr, ht⟩
      obtain rfl : s = t := ht.symm
      obtain rfl : r = decide (name ∈ s.ethernets) := hr
      by_cases hmem : name ∈ s.ethernets <;> simp [hmem]

end Passive

/-! ## The flush of all Ethernets -/

section Flush
variable {G : Env GwSig Bool}

theorem wp_flushOne {name : String} {s : Net × Bool} :
    wp (ctlEnv (Net.env fun _ => False) G) (flushOne name) (fun _ t => t.2 = s.2 ∧
      t.1.ethernets = s.1.ethernets ∧ t.1.addrsOf name = [] ∧ t.1.dhclient name = false ∧
      ∀ i, i ≠ name → t.1.addrsOf i = s.1.addrsOf i ∧ t.1.dhclient i = s.1.dhclient i) s := by
  simp +contextual [flushOne, Net.env, Effect]

theorem wp_flushAllEthernet {s : Net × Bool} :
    wp (ctlEnv (Net.env fun _ => False) G) flushAllEthernet (fun _ t => t.2 = s.2 ∧
      t.1.ethernets = s.1.ethernets ∧ (t.1.Clean ↔ s.1.listError = none ∨ s.1.Clean)) s := by
  unfold flushAllEthernet
  rw [wp_bind, wp_net]
  intro r t hcall
  obtain ⟨hr, ht⟩ : r = s.1.listing ∧ t = s.1 := by simpa [Net.env, Effect] using hcall
  obtain rfl : s.1 = t := ht.symm
  unfold Net.listing at hr
  cases hlist : s.1.listError with
  | some e =>
    rw [hlist] at hr
    obtain rfl : r = .error e := hr
    simp
  | none =>
    rw [hlist] at hr
    obtain rfl : r = .ok s.1.ethernets := hr
    rw [wp_ret]
    -- what has been flushed stays clean
    refine wp_mono (wp_forM (I := fun rest (t : Net × Bool) =>
      t.2 = s.2 ∧ t.1.ethernets = s.1.ethernets ∧
      ∀ i ∈ s.1.ethernets, i ∈ rest ∨ t.1.addrsOf i = [] ∧ t.1.dhclient i = false) ?_ ?_) ?_
    · exact ⟨rfl, rfl, fun i hi => Or.inl hi⟩
    · intro name rest t ⟨hd, heth, hdone⟩
      refine wp_mono wp_flushOne fun _ u ⟨hu, hueth, haddr, hdh, hothers⟩ =>
        ⟨hu.trans hd, hueth.trans heth, fun i hi => ?_⟩
      by_cases hin : i = name
      · subst hin
        exact Or.inr ⟨haddr, hdh⟩
      · rw [(hothers i hin).1, (hothers i hin).2]
        rcases hdone i hi with h | h
        · rcases List.mem_cons.mp h with h | h
          · exact absurd h hin
          · exact Or.inl h
        · exact Or.inr h
    · intro _ t ⟨hd, heth, hdone⟩
      refine ⟨hd, heth, ?_⟩
      have hclean : t.1.Clean := by
        intro i hi
        rw [heth] at hi
        rcases hdone i hi with h | h
        · exact absurd h List.not_mem_nil
        · exact h
      simp [hclean]

end Flush

/-! ## What teardown leaves -/

/-- No GatewayCtl call fails. -/
def Dnsmasq.obeying : Env GwSig Bool := fun c s r t => Dnsmasq.env c s r t ∧ c.isErr r = false

/-- Nothing of the daemon's is left: dnsmasq is not running, the physical
Ethernets are clean, and the default route has been deleted. -/
def TornDown (t : Net) (dnsmasq : Bool) (l : Log CtlSig (Net × Bool)) : Prop :=
  dnsmasq = false ∧ t.Clean ∧ ∃ e ∈ l, e.op = .net .delDefault

/-- After the resolution, nothing is left out but what the listing hides. -/
theorem wpE_teardownOn (iface : String) (s : Net × Bool) (l : Log CtlSig (Net × Bool)) :
    wpE (ctlEnv (Net.env fun _ => False) Dnsmasq.obeying).logged (teardownOn iface)
      (fun _ t => TornDown t.1.1 t.1.2 t.2 ↔ s.1.listError = none ∨ s.1.Clean)
      (fun _ _ => False) (s, l) := by
  unfold teardownOn
  rw [wpE_bind, wpE_mk, wp_logged_op]
  rintro r ⟨t, d⟩ ⟨⟨hstop, hok⟩, ht⟩
  obtain rfl : s.1 = t := ht.symm
  cases r with
  | error e => cases hok
  | ok _ =>
    obtain ⟨_, _, rfl⟩ := hstop
    rw [wp_ret, post_ok, wpE_bind, wpE_lift]
    refine wp_logged (wp_mono wp_flushAllEthernet ?_)
    rintro - t ⟨hd, -, hclean⟩ seg
    change t.2 = false at hd
    change t.1.Clean ↔ s.1.listError = none ∨ s.1.Clean at hclean
    simp only [wpE_bind, wpE_mk, wpE_lift, wp_logged_op, wp_ret, wpE_pure]
    rintro r u ⟨hdel, hu⟩
    obtain ⟨rfl, hut⟩ : r = .ok () ∧ u.1 = t.1 := by simpa [Net.env, Effect] using hdel
    rw [post_ok]
    rintro r v ⟨⟨⟨w, hw, -, hv⟩, -⟩, hvu⟩
    -- what has stopped does not start again
    have hdead : w = false := by
      cases w with
      | false => rfl
      | true => exact absurd (hu ▸ hw rfl : t.2 = true) (by simp [hd])
    have hvt : v.1 = t.1 := hvu.trans hut
    constructor
    · exact fun hdown => hclean.mp (hvt ▸ hdown.2.1)
    · intro hs
      refine ⟨hv.trans hdead, hvt ▸ hclean.mpr hs, ?_⟩
      exact ⟨⟨.net .delDefault, t, .ok ()⟩, by simp, rfl⟩

/-- **Teardown is complete exactly where the interface resolves** (and the listing
can be read, or there is nothing to clean), for every network state and every
configuration it accepts. -/
theorem teardown_complete_iff (cfg : Config) (hvalid : cfg.Valid) (s : Net) (d : Bool)
    (r : Except Error Status) (t : Net) (d' : Bool) (l : Log CtlSig (Net × Bool))
    (h : (teardownWith cfg).run.Exec (ctlEnv (Net.env fun _ => False) Dnsmasq.obeying).logged
      ((s, d), []) r ((t, d'), l)) :
    TornDown t d' l ↔ s.Resolvable cfg.interface ∧ (s.listError = none ∨ s.Clean) := by
  rw [teardownWith_eq, execE_bind] at h
  rcases h with ⟨_, u, hv, h⟩ | ⟨e, hv, _⟩
  · obtain ⟨_, rfl⟩ := exec_ret.mp hv
    rw [execE_bind] at h
    rcases h with ⟨k, ⟨⟨u, d₁⟩, m⟩, hres, h⟩ | ⟨e, hres, _⟩
    · obtain ⟨⟨hcall, hd⟩, hm⟩ := exec_call.mp hres
      obtain ⟨rfl, hok⟩ : u = s ∧ s.Resolvable cfg.interface := by
        rcases hcall with hcall | ⟨hfail, _⟩
        · exact wpE_iff.mp (wpE_resolveIfacePassive cfg.interface) _ _ hcall
        · exact hfail.elim
      have hpost := wpE_iff.mp (wpE_teardownOn k (u, d₁) m) r _ h
      cases r with
      | ok st => simpa [hok] using hpost
      | error e => exact hpost.elim
    · obtain ⟨⟨hcall, hd⟩, hm⟩ := exec_call.mp hres
      obtain ⟨rfl, hnot⟩ : t = s ∧ ¬ s.Resolvable cfg.interface := by
        rcases hcall with hcall | ⟨hfail, _⟩
        · exact wpE_iff.mp (wpE_resolveIfacePassive cfg.interface) _ _ hcall
        · exact hfail.elim
      obtain rfl : l = [⟨.net (.resolveIfacePassive cfg.interface), (t, d), .error e⟩] := hm
      -- it ends before its first change
      simp [TornDown, hnot]
  · have hok := (exec_ret.mp hv).1
    rw [hvalid] at hok
    cases hok

/-! ### Runs -/

theorem Dnsmasq.handler_obeying (offer : Bool) :
    (Dnsmasq.handler (.ok offer)).Implements Dnsmasq.obeying := by
  intro op s
  refine ⟨Dnsmasq.handler_implements _ op s, ?_⟩
  cases op <;> rfl

/-- `eth0` still has its address; the dhclient of `eth1` still runs. -/
def stillUp : Net :=
  { ethernets := ["eth0", "eth1"], up := fun _ => true,
    addrs := [("eth0", .slash24 ⟨192, 168, 0, 1⟩)], dhclient := fun i => i = "eth1" }

def tearStillUp (cfg : Config) : Except Error Status × (Net × Bool) × Log CtlSig (Net × Bool) :=
  (teardownWith cfg).run.run
    (ctlHandler Lan.silent.net (Dnsmasq.handler (.ok false))).logged ((stillUp, true), [])

theorem exec_tearStillUp (cfg : Config) :
    (teardownWith cfg).run.Exec (ctlEnv (Net.env fun _ => False) Dnsmasq.obeying).logged
      ((stillUp, true), []) (tearStillUp cfg).1 (tearStillUp cfg).2 :=
  ((ctlHandler_implements (Lan.silent.net_implements _)
    (Dnsmasq.handler_obeying false)).logged).exec _ _

theorem stillUp_torn_down :
    TornDown (tearStillUp {}).2.1.1 (tearStillUp {}).2.1.2 (tearStillUp {}).2.2 :=
  (teardown_complete_iff {} (by decide) stillUp true _ _ _ _ (exec_tearStillUp {})).mpr
    ⟨⟨rfl, by decide⟩, Or.inl rfl⟩

/-- **An unplugged interface stops teardown** before it has done anything: with
`eth9` pinned and gone, dnsmasq still runs and `eth0` keeps its address. -/
theorem unplugged_not_torn_down :
    let cfg : Config := { interface := some "eth9" }
    let out := tearStillUp cfg
    cfg.Valid ∧
      (teardownWith cfg).run.Exec (ctlEnv (Net.env fun _ => False) Dnsmasq.obeying).logged
        ((stillUp, true), []) out.1 out.2 ∧
      out.2.1.2 = true ∧ out.2.1.1.addrsOf "eth0" ≠ [] ∧
      ¬ TornDown out.2.1.1 out.2.1.2 out.2.2 := by
  refine ⟨by decide, exec_tearStillUp _, by decide, by decide, fun h => ?_⟩
  exact absurd h.1 (by decide)

end Micronet

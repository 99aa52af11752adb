import Micronet.Machine

/-!
# Isolation of the other interfaces

Once an interface is chosen, every other physical Ethernet is set down and
flushed, before anything else is done.  The loop skips what is down and
unaddressed already; what comes after it acts on the chosen interface only, so
the others stay as the loop has left them.
-/
namespace Micronet
open Interaction Prog Net

variable {γ : Type} {G : Env GwSig γ} {F : NetCall → Prop} {U : NetCall → Net → Prop}
  {flushes : Prop}

/-- The calls isolation needs: the listing, and the loop's flush and set-down. -/
def NetCall.isolates : NetCall → Bool
  | .listEthernet | .flushAddr _ | .setDown _ => true
  | _ => false

/-- Calls that act on no interface but `k`, and do not set it down. -/
def CtlCall.OnlyOn (k : String) : CtlCall → Prop
  | .gw _ => True
  | .net (.bringUp i) | .net (.flushAddr i) | .net (.addAddr i _) | .net (.stopDhclient i)
  | .net (.startDhclient i) | .net (.waitIpv4 i _) => i = k
  | .net (.setDown _) | .net (.resolveIface _) | .net (.resolveIfacePassive _) => False
  | .net _ => True

/-- Every interface of `names` but `k` is down, and has no address if no flush was in vain. -/
def Isolated (flushes : Prop) (names : List String) (k : String) (s : Net) : Prop :=
  ∀ i ∈ names, i ≠ k → s.up i = false ∧ (flushes → s.addrsOf i = [])

namespace Net

/-- The loop goes past the interface: it is down without an address. -/
def Skips (s : Net) (i : String) : Prop := s.up i = false ∧ s.addrsOf i = []

/-- Isolation does not see the interface: it is not listed, or the loop goes past it. -/
def Overlooks (s : Net) (i : String) : Prop :=
  s.listError ≠ none ∨ i ∉ s.ethernets ∨ s.Skips i

instance (s : Net) (i : String) : Decidable (s.Skips i) := inferInstanceAs (Decidable (_ ∧ _))

instance (s : Net) (i : String) : Decidable (s.Overlooks i) :=
  inferInstanceAs (Decidable (_ ∨ _ ∨ _))

/-- Nothing has happened to an interface and its dhclient. -/
def Alike (i : String) (s t : Net) : Prop :=
  t.up i = s.up i ∧ t.addrsOf i = s.addrsOf i ∧ t.dhclient i = s.dhclient i

theorem Alike.refl (i : String) (s : Net) : Alike i s s := ⟨rfl, rfl, rfl⟩

theorem Alike.trans {i : String} {s t u : Net} (h : Alike i s t) (h' : Alike i t u) :
    Alike i s u := ⟨h'.1.trans h.1, h'.2.1.trans h.2.1, h'.2.2.trans h.2.2⟩

theorem Alike.skips {i : String} {s t : Net} (h : Alike i s t) : t.Skips i ↔ s.Skips i := by
  unfold Skips
  rw [h.1, h.2.1]

end Net

/-! ## The loop -/

/-- What the loop does with an interface that it does not skip. -/
def takeDown (name : String) : Prog CtlSig PUnit := do
  let _ ← NetOps.stopDhclient name
  let _ ← NetOps.flushAddr name
  let _ ← NetOps.setDown name
  return ⟨⟩

/-- **One interface of the loop**, wherever the state of links and addresses is read: it is
kept, skipped or taken down. -/
theorem wp_isolateOne_of {ν : Type} {N : Env NetSig ν} {f : ν → Net} {keep name : String}
    {Q : PUnit → ν × γ → Prop} {s : ν × γ}
    (hup : ∀ r t, N (.linkIsUp name) s.1 r t → r = (f s.1).up name ∧ t = s.1)
    (hcidr : ∀ r t, N (.ifaceIpv4Cidr name) s.1 r t →
      r = firstInetCidr ((f s.1).addrsOf name) ∧ t = s.1)
    (hleft : name = keep ∨ (f s.1).Skips name → Q ⟨⟩ s)
    (htaken : ¬ (name = keep ∨ (f s.1).Skips name) → wp (ctlEnv N G) (takeDown name) Q s) :
    wp (ctlEnv N G) (isolateOne keep name) Q s := by
  unfold isolateOne
  by_cases hkeep : name = keep
  · rw [if_pos hkeep]
    exact hleft (Or.inl hkeep)
  rw [if_neg hkeep, wp_bind, wp_net]
  intro up t hread
  obtain ⟨rfl, rfl⟩ := hup up t hread
  rw [wp_ret, wp_bind, wp_ite]
  refine ⟨fun hread => ?_, fun hread => ?_⟩
  · rw [wp_pure, if_neg Bool.false_ne_true]
    exact htaken (by simp [hkeep, Skips, hread])
  · rw [wp_bind, wp_net]
    intro cidr t hread'
    obtain ⟨rfl, rfl⟩ := hcidr cidr t hread'
    rw [wp_ret, wp_pure, wp_ite]
    have hdown : (f s.1).up name = false := by simpa using hread
    refine ⟨fun hnone => ?_, fun hsome => ?_⟩
    · rw [Option.isNone_iff_eq_none, firstInetCidr_eq_none] at hnone
      exact hleft (Or.inr ⟨hdown, hnone⟩)
    · rw [Option.isNone_iff_eq_none, firstInetCidr_eq_none] at hsome
      exact htaken (by simp [hkeep, Skips, hsome])

/-- What is taken down is down, and unaddressed unless the flush was in vain; nothing else is
touched. -/
theorem wp_takeDown_isolates (hF : ∀ c, F c → ¬ c.isolates)
    (hU : flushes → ∀ i n, ¬ U (.flushAddr i) n)
    {name : String} {s : Net × γ} :
    wp (ctlEnv (Net.slack F U) G) (takeDown name) (fun _ t =>
      t.1.ethernets = s.1.ethernets ∧ t.1.up name = false ∧ (flushes → t.1.addrsOf name = []) ∧
      ∀ i, i ≠ name → t.1.up i = s.1.up i ∧ t.1.addrsOf i = s.1.addrsOf i) s := by
  simp only [takeDown, wp_bind, wp_net, wp_ret, wp_pure]
  intro r t hstop r' u hflush r'' v hdown
  have ht : t.ethernets = s.1.ethernets ∧
      ∀ i, t.up i = s.1.up i ∧ t.addrsOf i = s.1.addrsOf i := by
    rcases env_of_slack rfl hstop with ⟨-, rfl⟩ | ⟨-, -, rfl⟩ <;> simp
  have hu : u.ethernets = t.ethernets ∧ (flushes → u.addrsOf name = []) ∧
      ∀ i, i ≠ name → u.up i = t.up i ∧ u.addrsOf i = t.addrsOf i := by
    rcases hflush with (⟨-, rfl⟩ | ⟨hfails, -⟩) | ⟨-, hvain, -, rfl⟩
    · simp +contextual
    · exact absurd rfl (hF _ hfails)
    · exact ⟨rfl, fun h => absurd hvain (hU h name _), fun _ _ => ⟨rfl, rfl⟩⟩
  obtain ⟨-, rfl⟩ := (env_of_slack rfl hdown).resolve_right fun h => hF _ h.1 rfl
  refine ⟨hu.1.trans ht.1, by simp, fun h => hu.2.1 h, fun i hi => ?_⟩
  rw [setUp_up, if_neg hi, setUp_addrsOf, (hu.2.2 i hi).1, (hu.2.2 i hi).2]
  exact ht.2 i

/-- One interface of the loop ends down and unaddressed unless it is kept; the
others are left alone. -/
theorem wp_isolateOne (hF : ∀ c, F c → ¬ c.isolates)
    (hU : flushes → ∀ i n, ¬ U (.flushAddr i) n) {keep name : String} {s : Net × γ} :
    wp (ctlEnv (Net.slack F U) G) (isolateOne keep name) (fun _ t =>
      t.1.ethernets = s.1.ethernets ∧
      (name ≠ keep → t.1.up name = false ∧ (flushes → t.1.addrsOf name = [])) ∧
      ∀ i, i ≠ name → t.1.up i = s.1.up i ∧ t.1.addrsOf i = s.1.addrsOf i) s := by
  refine wp_isolateOne_of (f := id) (fun r t h => ?_) (fun r t h => ?_) ?_ fun _ => ?_
  · exact (env_of_slack rfl h).resolve_right fun h => Bool.false_ne_true h.2.1
  · exact (env_of_slack rfl h).resolve_right fun h => Bool.false_ne_true h.2.1
  · rintro (hkeep | hskip)
    · exact ⟨rfl, fun h => absurd hkeep h, fun _ _ => ⟨rfl, rfl⟩⟩
    · exact ⟨rfl, fun _ => ⟨hskip.1, fun _ => hskip.2⟩, fun _ _ => ⟨rfl, rfl⟩⟩
  · exact wp_mono (wp_takeDown_isolates hF hU) fun _ _ h =>
      ⟨h.1, fun _ => ⟨h.2.1, h.2.2.1⟩, h.2.2.2⟩

/-- **The loop isolates** every interface of its list. -/
theorem wp_isolate_forM (hF : ∀ c, F c → ¬ c.isolates)
    (hU : flushes → ∀ i n, ¬ U (.flushAddr i) n) {keep : String} {names : List String}
    {s : Net × γ} :
    wp (ctlEnv (Net.slack F U) G) (names.forM (isolateOne keep))
      (fun _ t => t.1.ethernets = s.1.ethernets ∧ Isolated flushes names keep t.1) s := by
  refine wp_mono (wp_forM (I := fun rest t => t.1.ethernets = s.1.ethernets ∧
    ∀ i ∈ names, i ≠ keep → i ∈ rest ∨ t.1.up i = false ∧ (flushes → t.1.addrsOf i = [])) ?_ ?_) ?_
  · exact ⟨rfl, fun i hi _ => Or.inl hi⟩
  · intro name rest t ⟨heth, hdone⟩
    refine wp_mono (wp_isolateOne hF hU) fun _ u ⟨hu, hname, hothers⟩ => ⟨hu.trans heth, ?_⟩
    intro i hi hk
    by_cases hin : i = name
    · subst hin
      exact Or.inr (hname hk)
    · obtain ⟨hup, haddr⟩ := hothers i hin
      rw [hup, haddr]
      rcases hdone i hi hk with hr | hr
      · rcases List.mem_cons.mp hr with h | h
        · exact absurd h hin
        · exact Or.inl h
      · exact Or.inr hr
  · intro _ t ⟨heth, hdone⟩
    refine ⟨heth, fun i hi hk => ?_⟩
    rcases hdone i hi hk with h | h
    · exact absurd h List.not_mem_nil
    · exact h

theorem wp_isolateIface (hF : ∀ c, F c → ¬ c.isolates)
    (hU : flushes → ∀ i n, ¬ U (.flushAddr i) n) {keep : String} {s : Net × γ}
    (hlist : s.1.listError = none) :
    wp (ctlEnv (Net.slack F U) G) (isolateIface keep)
      (fun _ t => t.1.ethernets = s.1.ethernets ∧ Isolated flushes s.1.ethernets keep t.1) s := by
  have hF' : ¬ F .listEthernet := fun h => hF _ h rfl
  unfold isolateIface
  rw [wp_bind, wp_net]
  intro r t hr
  obtain ⟨rfl, rfl⟩ : r = .ok s.1.ethernets ∧ t = s.1 := by
    simpa [Net.env, Effect, Net.listing, hlist, hF'] using env_of_slack rfl hr
  exact wp_isolate_forM hF hU

/-- Where no call is in vain. -/
theorem ctlEnv_slack {op : CtlCall} {s t : Net × γ} {r : op.Ret}
    (h : ctlEnv (Net.env F) G op s r t) : ctlEnv (Net.slack F fun _ _ => False) G op s r t := by
  cases op with
  | net c => exact ⟨slack_of_env h.1, h.2⟩
  | gw c => exact h

/-- The loop goes past all that it has left. -/
theorem wp_isolateIface_skips (hF : ∀ c, F c → ¬ c.isolates) {keep : String} {s : Net × γ}
    (hlist : s.1.listError = none) :
    wp (ctlEnv (Net.env F) G) (isolateIface keep)
      (fun _ t => ∀ i ∈ s.1.ethernets, i ≠ keep → t.1.Skips i) s := by
  refine wp_iff.mpr fun r t h i hi hne => ?_
  have hslack := h.map (f := id) fun _ _ _ _ h => ctlEnv_slack h
  have hpost := wp_iff.mp (wp_isolateIface hF (fun (_ : True) _ _ h => h) hlist) r t hslack
  exact (hpost.2 i hi hne).imp_right fun h => h trivial

/-! ## After the loop -/

/-- A call on `k` leaves the other interfaces as they are and does not set `k` down. -/
theorem onlyOn_frame {k : String} {c : NetCall} {s t : Net} {r : c.Ret}
    (hc : CtlCall.OnlyOn k (.net c)) (h : Effect c s r t) :
    (∀ i, i ≠ k →
        t.up i = s.up i ∧ t.addrsOf i = s.addrsOf i ∧ t.dhclient i = s.dhclient i) ∧
      (s.up k = true → t.up k = true) := by
  cases hact : c.acts with
  | false => simp [eq_of_not_acts hact h]
  | true =>
    cases c <;> simp [CtlCall.OnlyOn, NetCall.acts] at hc hact
    case bringUp i =>
      obtain ⟨_, rfl⟩ := h
      simp +contextual [hc]
    case flushAddr i =>
      obtain ⟨_, rfl⟩ := h
      simp +contextual [hc]
    case addAddr i c =>
      obtain ⟨_, rfl⟩ := h
      subst hc
      exact ⟨fun j hj => ⟨by simp, addAddr_addrsOf_of_ne _ _ _ _ hj, by simp⟩, by simp⟩
    case stopDhclient i =>
      obtain ⟨_, rfl⟩ := h
      simp +contextual [hc]
    case startDhclient i =>
      obtain ⟨_, rfl⟩ := h
      simp +contextual [hc]
    case waitIpv4 i d =>
      obtain ⟨l, _, _, rfl⟩ := h
      simp +contextual [hc]

/-- What is isolated stays so under calls on the chosen interface, which stays up. -/
theorem onlyOn_keeps {names : List String} {k : String} {op : CtlCall} {s t : Net × γ}
    {r : op.Ret} (hop : op.OnlyOn k) (hs : Isolated flushes names k s.1 ∧ s.1.up k = true)
    (h : ctlEnv (Net.slack F U) G op s r t) : Isolated flushes names k t.1 ∧ t.1.up k = true := by
  obtain ⟨hiso, hup⟩ := hs
  cases op with
  | gw c => rw [h.2]; exact ⟨hiso, hup⟩
  | net c =>
    rcases effect_of_slack h.1 with he | he
    · obtain ⟨hothers, hk⟩ := onlyOn_frame hop he
      refine ⟨fun i hi hne => ?_, hk hup⟩
      rw [(hothers i hne).1, (hothers i hne).2.1]
      exact hiso i hi hne
    · rw [he]; exact ⟨hiso, hup⟩

theorem within_applyMode (cfg : Config) (iface : String) (ip : Ipv4Addr) (mode : Mode) :
    WithinE (CtlCall.OnlyOn iface) (fun st => st.iface = iface) (applyMode cfg iface ip mode) := by
  cases mode with
  | client => simp [applyMode, applyClient, CtlCall.OnlyOn]
  | static => simp [applyMode, applyStatic, CtlCall.OnlyOn]
  | gateway => simp [applyMode, applyGateway, CtlCall.OnlyOn]

theorem within_applyOffer (cfg : Config) (iface : String) (foreign : Bool) :
    WithinE (CtlCall.OnlyOn iface) (fun st => st.iface = iface)
      (applyOffer cfg iface foreign) := by
  cases foreign
  · simp [applyOffer, applyLocal, assignStatic, askGateway, CtlCall.OnlyOn, within_applyMode]
  · exact within_applyMode cfg iface cfg.staticAddr .client

theorem within_applyOn_iface (cfg : Config) (iface : String) :
    WithinE (fun _ => True) (fun st => st.iface = iface) (applyOn cfg iface) := by
  have hoffer : ∀ foreign, WithinE (fun _ => True) (fun st => st.iface = iface)
      (applyOffer cfg iface foreign) := fun foreign =>
    within_mono (fun _ _ => trivial) (fun _ h => h) (within_applyOffer cfg iface foreign)
  have hloop : (isolateIface iface).Within (fun _ => True) fun _ => True :=
    within_isolateIface (fun _ _ => trivial) trivial
  simp [applyOn, seekOffer, probeOn, hloop, hoffer]

/-- **What follows the resolution isolates**, whether it succeeds or fails. -/
theorem wpE_applyOn (hF : ∀ c, F c → ¬ c.isolates) (hU : flushes → ∀ i n, ¬ U (.flushAddr i) n)
    {cfg : Config} {k : String} {s : Net × γ} (hlist : s.1.listError = none) :
    wpE (ctlEnv (Net.slack F U) G) (applyOn cfg k)
      (fun st t => st.iface = k ∧ Isolated flushes s.1.ethernets k t.1 ∧ t.1.up k = true)
      (fun _ t => Isolated flushes s.1.ethernets k t.1) s := by
  unfold applyOn seekOffer
  rw [bind_assoc, wpE_bind, wpE_lift]
  refine wp_mono (wp_isolateIface hF hU hlist) fun _ t ⟨_, hiso⟩ => ?_
  have htail : ∀ u : Net × γ, Isolated flushes s.1.ethernets k u.1 ∧ u.1.up k = true →
      wpE (ctlEnv (Net.slack F U) G) (probeOn cfg k >>= applyOffer cfg k)
        (fun st t => st.iface = k ∧ Isolated flushes s.1.ethernets k t.1 ∧ t.1.up k = true)
        (fun _ t => Isolated flushes s.1.ethernets k t.1) u := by
    intro u hu
    have hwithin : WithinE (CtlCall.OnlyOn k) (fun st : Status => st.iface = k)
        (probeOn cfg k >>= applyOffer cfg k) := by
      simp [probeOn, CtlCall.OnlyOn, within_applyOffer]
    exact wpE_mono (wpE_within (fun _ _ _ _ hop hs h => onlyOn_keeps hop hs h) hwithin hu)
      (fun _ _ h => h) (fun _ _ h => h.1)
  rw [bind_assoc, wpE_bind, wpE_mk, wp_net]
  intro r u hr
  rcases env_of_slack rfl hr with ⟨rfl, rfl⟩ | ⟨_, herr, rfl⟩
  · refine htail _ ⟨fun i hi hne => ?_, by simp⟩
    have hkeep : ((t.1.setUp k true).up i) = t.1.up i := by rw [setUp_up, if_neg hne]
    exact hkeep ▸ hiso i hi hne
  · obtain ⟨e, rfl⟩ := isErr_iff.mp herr
    exact hiso

/-! ## Isolation of apply -/

/-- **Isolation.**  With the listing, the flushes and the set-downs doing what they
say and anything else allowed to fail, whatever the DHCP server answers: when an
apply that resolved `k` returns, every other physical Ethernet is admin-down and
has no address; and if it returns a status, this is on `k`, and `k` is admin-up. -/
theorem apply_isolates (cfg : Config) (s : Net) (hlist : s.listError = none) (g : γ)
    (r : Except Error Status) (t : Net) (g' : γ) (l : Log CtlSig (Net × γ)) (k : String)
    (h : (applyWith cfg).run.Exec (ctlEnv (Net.env fun c => ¬ c.isolates) G).logged ((s, g), []) r
      ((t, g'), l))
    (hk : resolvedIface l = some k) :
    (∀ i ∈ s.ethernets, i ≠ k → t.up i = false ∧ t.addrsOf i = []) ∧
      ∀ st, r = .ok st → st.iface = k ∧ t.up k = true := by
  obtain ⟨_, ⟨u, gu⟩, seg, ⟨hres, _⟩, _, hon⟩ := exec_applyWith_resolved h hk
  -- resolving has only set interfaces up
  obtain ⟨up, rfl⟩ : ∃ up, u = { s with up := up } := by
    rcases hres with hres | ⟨_, herr, _⟩
    · exact exec_sysEnv hres
    · cases herr
  have hslack := hon.forget.map (f := id) fun _ _ _ _ h => ctlEnv_slack h
  have hpost := wpE_iff.mp (wpE_applyOn (fun _ hc => hc) (fun (_ : True) _ _ h => h) hlist)
    r (t, g') hslack
  cases r with
  | ok st =>
    obtain ⟨hiface, hiso, hup⟩ := hpost
    refine ⟨fun i hi hne => (hiso i hi hne).imp_right fun h => h trivial, fun st' hst => ?_⟩
    obtain rfl := Except.ok.inj hst
    exact ⟨hiface, hup⟩
  | error e =>
    exact ⟨fun i hi hne => (hpost i hi hne).imp_right fun h => h trivial, fun _ hst => nomatch hst⟩

/-! ### A run -/

/-- Two interfaces, both up and addressed. -/
def twoUp : Net :=
  { ethernets := ["eth0", "eth1"], up := fun _ => true,
    addrs := [("eth0", .slash24 ⟨10, 0, 0, 5⟩), ("eth1", .slash24 ⟨10, 0, 1, 5⟩)],
    dhclient := fun _ => false }

theorem twoUp_isolated :
    let out := (applyWith {}).run.run
      (ctlHandler Lan.silent.net (Dnsmasq.handler (.ok false))).logged ((twoUp, false), [])
    out.2.1.1.up "eth1" = false ∧ out.2.1.1.addrsOf "eth1" = [] := by
  intro out
  have himpl := (ctlHandler_implements (Lan.silent.net_implements fun c => ¬ c.isolates)
    (Dnsmasq.handler_implements (.ok false))).logged
  exact (apply_isolates {} twoUp rfl false out.1 out.2.1.1 out.2.1.2 out.2.2 "eth0"
    (himpl.exec _ _) (by decide)).1 "eth1" (by decide) (by decide)

end Micronet

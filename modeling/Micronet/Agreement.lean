import Micronet.Carriers
import Micronet.Isolation

/-!
# The passive resolution after an apply

An apply resolves its interface actively, and a teardown resolves it passively from what
that apply has left.  Isolation has set the other interfaces down by then, so what they
would have shown later is not seen: the two agree (`resolution_agrees`).  A set-down
that fails is only logged, and leaves an interface whose carrier can come late.
-/
namespace Micronet
open Interaction Prog Net

variable {γ : Type} {G : Env GwSig γ} {F : NetCall → Prop}

/-- The calls that isolation needs to set the others down. -/
def NetCall.downs : NetCall → Bool
  | .listEthernet | .setDown _ => true
  | _ => false

/-- Every interface of `names` but `k` is down. -/
def Net.OthersDown (names : List String) (k : String) (s : Net) : Prop :=
  ∀ i ∈ names, i ≠ k → s.up i = false

/-- What follows isolation is on `k`. -/
theorem within_afterIsolation (cfg : Config) (k : String) :
    WithinE (CtlCall.OnlyOn k) (fun st : Status => st.iface = k) (do
      attempt (NetOps.bringUp k)
      let foreignDhcp ← probeOn cfg k
      applyOffer cfg k foreignDhcp) := by
  simp [probeOn, CtlCall.OnlyOn, within_applyOffer]

/-! ## The others are down -/

section Down
variable (hF : ∀ c, F c → ¬ c.downs)
include hF

/-- One interface of the loop ends down unless it is kept, and nothing is set up. -/
theorem wp_isolateOne_down {keep name : String} {s : Net × γ} :
    wp (ctlEnv (Net.env F) G) (isolateOne keep name) (fun _ t =>
      (name ≠ keep → t.1.up name = false) ∧ ∀ i, s.1.up i = false → t.1.up i = false) s := by
  have hdown : ¬ F (.setDown name) := fun h => hF _ h rfl
  refine wp_isolateOne_of (f := id) ?_ ?_ ?_ fun _ => ?_
  · simp [Net.env, Effect, NetCall.isErr]
  · simp [Net.env, Effect, NetCall.isErr]
  · rintro (hkeep | hskip)
    · exact ⟨fun h => absurd hkeep h, fun _ h => h⟩
    · exact ⟨fun _ => hskip.1, fun _ h => h⟩
  · simp only [takeDown, wp_bind, wp_net, wp_ret, wp_pure]
    intro r t hstop r' u hflush r'' v hset
    have ht : t.up = s.1.up := by
      rcases hstop with ⟨_, rfl⟩ | ⟨_, _, rfl⟩ <;> rfl
    have hu : u.up = t.up := by
      rcases hflush with ⟨_, rfl⟩ | ⟨_, _, rfl⟩ <;> rfl
    obtain ⟨_, rfl⟩ := hset.resolve_right fun h => hdown h.1
    simp +contextual [hu, ht]

theorem wp_isolate_forM_down {keep : String} {names : List String} {s : Net × γ} :
    wp (ctlEnv (Net.env F) G) (names.forM (isolateOne keep))
      (fun _ t => t.1.OthersDown names keep) s := by
  refine wp_mono (wp_forM (I := fun rest t => ∀ i ∈ names, i ≠ keep →
    i ∈ rest ∨ t.1.up i = false) (fun i hi _ => Or.inl hi) ?_) ?_
  · intro name rest t hdone
    refine wp_mono (wp_isolateOne_down hF) fun _ u ⟨hname, hothers⟩ i hi hk => ?_
    rcases hdone i hi hk with hrest | hdown
    · rcases List.mem_cons.mp hrest with rfl | hrest
      · exact Or.inr (hname hk)
      · exact Or.inl hrest
    · exact Or.inr (hothers i hdown)
  · intro _ t hdone i hi hk
    exact (hdone i hi hk).resolve_left List.not_mem_nil

theorem wp_isolateIface_down {keep : String} {s : Net × γ} (hlist : s.1.listError = none) :
    wp (ctlEnv (Net.env F) G) (isolateIface keep)
      (fun _ t => t.1.OthersDown s.1.ethernets keep) s := by
  have hlisted : ¬ F .listEthernet := fun h => hF _ h rfl
  unfold isolateIface
  rw [wp_bind, wp_net]
  intro r t hr
  obtain ⟨rfl, rfl⟩ : r = .ok s.1.ethernets ∧ t = s.1 := by
    simpa [Net.env, Effect, Net.listing, hlist, hlisted] using hr
  exact wp_isolate_forM_down hF

/-- **What follows the resolution takes the others down**, whether it succeeds or fails. -/
theorem wpE_applyOn_down {cfg : Config} {k : String} {s : Net × γ}
    (hlist : s.1.listError = none) :
    wpE (ctlEnv (Net.env F) G) (applyOn cfg k) (fun _ t => t.1.OthersDown s.1.ethernets k)
      (fun _ t => t.1.OthersDown s.1.ethernets k) s := by
  have hframe : ∀ (op : CtlCall) (u : Net × γ) r v, op.OnlyOn k →
      u.1.OthersDown s.1.ethernets k → ctlEnv (Net.env F) G op u r v →
      v.1.OthersDown s.1.ethernets k := by
    intro op u r v hop hu h i hi hk
    cases op with
    | gw c =>
      rw [h.2]
      exact hu i hi hk
    | net c =>
      rcases h.1 with hE | ⟨_, _, hE⟩
      · rw [((onlyOn_frame hop hE).1 i hk).1]
        exact hu i hi hk
      · rw [hE]
        exact hu i hi hk
  unfold applyOn seekOffer
  simp only [bind_assoc]
  rw [wpE_bind, wpE_lift]
  refine wp_mono (wp_isolateIface_down hF hlist) fun _ t hdown => ?_
  exact wpE_mono (wpE_within hframe (within_afterIsolation cfg k) hdown) (fun _ _ h => h.2)
    fun _ _ h => h

end Down

/-! ## The carrier of the interface stays -/

/-- The calls that follow a resolution of `k`. -/
def CtlCall.Follows (k : String) (op : CtlCall) : Prop := op.Isolates k ∨ op.OnlyOn k

theorem within_applyOn_follows (cfg : Config) (k : String) :
    WithinE (CtlCall.Follows k) (fun _ => True) (applyOn cfg k) := by
  have hloop : ∀ K : PUnit → Prop, K ⟨⟩ → (isolateIface k).Within (CtlCall.Follows k) K :=
    fun K hK => within_isolateIface (fun _ => Or.inl) hK
  unfold applyOn seekOffer
  simp only [bind_assoc]
  rw [withinE_bind, withinE_lift]
  exact hloop _ (within_mono (fun _ => Or.inr) (fun _ _ _ _ => trivial)
    (within_afterIsolation cfg k))

/-- None of them sets `k` down. -/
theorem follows_up {k : String} {c : NetCall} {s t : Net} {r : c.Ret}
    (hc : CtlCall.Follows k (.net c)) (h : Net.env F c s r t) (hup : s.up k = true) :
    t.up k = true := by
  rcases h with hE | ⟨_, _, rfl⟩
  · rcases hc with hc | hc
    · cases hact : c.acts with
      | false => rwa [eq_of_not_acts hact hE]
      | true =>
        cases c <;> simp [CtlCall.Isolates, NetCall.acts] at hc hact
        case stopDhclient i => rw [hE.2]; exact hup
        case flushAddr i => rw [hE.2]; exact hup
        case setDown i =>
          rw [hE.2, setUp_up, if_neg (Ne.symm hc)]
          exact hup
    · exact (onlyOn_frame hc hE).2 hup
  · exact hup

variable {cable : String → Bool}

/-- **What follows a resolution keeps the pick**: its carrier, or that it is the first. -/
theorem follows_picked {k : String} {op : CtlCall} {s t : Wired cable × γ} {r : op.Ret}
    (hop : op.Follows k) (hs : s.1.PickedIn k) (h : ctlEnv (Wired.env F) G op s r t) :
    t.1.PickedIn k := by
  cases op with
  | gw c =>
    rw [h.2]
    exact hs
  | net c =>
    have hnet := Wired.env_net h.1
    have hlisting : t.1.net.listError = s.1.net.listError ∧
        t.1.net.ethernets = s.1.net.ethernets := by
      rcases hnet with hE | ⟨_, _, hE⟩
      · exact (effect_listing hE).symm
      · rw [hE]
        exact ⟨rfl, rfl⟩
    have hsteady : s.1.Steady t.1 := by
      cases c
      case resolveIface configured => exact (hop.elim id id).elim
      case resolveIfacePassive configured => exact (hop.elim id id).elim
      all_goals exact h.1.2.2
    obtain ⟨hlist, hmem, hpick⟩ := hs
    unfold Wired.PickedIn
    rw [hlisting.1, hlisting.2]
    refine ⟨hlist, hmem, hpick.imp_left fun hshown => ?_⟩
    exact hsteady k hshown (follows_up hop hnet (s.1.lit k hshown).1)

/-- No call changes the listing. -/
theorem exec_listing {α : Type} {p : Prog CtlSig α} {s t : Net × γ} {a : α}
    (h : p.Exec (ctlEnv (Net.env F) G) s a t) :
    t.1.listError = s.1.listError ∧ t.1.ethernets = s.1.ethernets := by
  refine h.keeps (I := fun u : Net × γ =>
    u.1.listError = s.1.listError ∧ u.1.ethernets = s.1.ethernets) ?_ ⟨rfl, rfl⟩
  intro op u r v hu hE
  cases op with
  | gw c =>
    rw [hE.2]
    exact hu
  | net c =>
    rcases hE.1 with hE | ⟨_, _, hE⟩
    · rw [(effect_listing hE).1, (effect_listing hE).2]
      exact hu
    · rw [hE]
      exact hu

/-- The carriers forgotten. -/
theorem Exec.forgetCarriers {α : Type} {p : Prog CtlSig α} {s t : Wired cable × γ} {a : α}
    (h : p.Exec (ctlEnv (Wired.env F) G) s a t) :
    p.Exec (ctlEnv (Net.env F) G) (s.1.net, s.2) a (t.1.net, t.2) := by
  refine h.map (f := fun s => (s.1.net, s.2)) fun op u r v hE => ?_
  cases op with
  | gw c => exact ⟨hE.1, congrArg Wired.net hE.2⟩
  | net c => exact ⟨Wired.env_net hE.1, hE.2⟩

/-! ## The two resolutions -/

/-- **The active resolution**: an automatic pick is listed, and shows carrier or is the
first; a pinned name is itself. -/
theorem active_picked {configured : Option String} {k : String} {s u : Wired cable}
    (h : (LiveNet.resolveIface configured).run.Exec Wired.sysEnv s (.ok k) u) :
    (Automatic configured → u.PickedIn k) ∧ (¬ Automatic configured → configured = some k) ∧
      k ∈ s.net.ethernets := by
  by_cases hauto : Automatic configured
  · rw [LiveNet.resolveIface, resolveIfaceWith_auto hauto] at h
    have hk : u.PickedIn k := wpE_iff.mp Wired.wpE_resolveAuto_live (.ok k) u h
    obtain ⟨up, hu⟩ := exec_sysEnv (Wired.exec_net h)
    have hmem := hk.2.1
    rw [hu] at hmem
    exact ⟨fun _ => hk, fun h => absurd hauto h, hmem⟩
  · obtain ⟨name, rfl, hname⟩ := pinned_of_not_automatic hauto
    rw [LiveNet.resolveIface, resolveIfaceWith_pinned hname] at h
    obtain ⟨rfl, hmem, -⟩ := wpE_iff.mp Wired.wpE_resolvePinned (.ok k) u h
    exact ⟨fun h => absurd h hauto, fun _ => rfl, hmem⟩

/-- **The passive resolution** finds `k` again where the others are down. -/
theorem passive_of_others_down {configured : Option String} {k : String} {t : Wired cable}
    (hpick : Automatic configured → t.PickedIn k ∧ t.net.OthersDown t.net.ethernets k)
    (hpin : ¬ Automatic configured → configured = some k) (hmem : k ∈ t.net.ethernets)
    {r : Except Error String} {u : Wired cable}
    (h : (LiveNet.resolveIfacePassive configured).run.Exec Wired.sysEnv t r u) : r = .ok k := by
  by_cases hauto : Automatic configured
  · obtain ⟨hk, hdown⟩ := hpick hauto
    rw [LiveNet.resolveIfacePassive, resolveIfaceWith_auto hauto] at h
    have hpost := wpE_iff.mp (Wired.wpE_resolveAuto_none hk hdown) r u h
    cases r with
    | ok i => exact congrArg _ hpost
    | error e => exact hpost.elim
  · obtain rfl := hpin hauto
    have hname : k ≠ LiveNet.autoIface := fun e => hauto (Or.inr (congrArg some e))
    rw [LiveNet.resolveIfacePassive, resolveIfaceWith_pinned hname] at h
    have hpost := wpE_iff.mp Wired.wpE_resolvePinned r u h
    cases r with
    | ok i => exact congrArg _ hpost.1
    | error e => exact absurd hmem hpost.1

/-- **An apply resolves what a passive resolution finds afterwards**, where the listing and
the set-downs of isolation do what they say and anything else may fail; its automatic pick
is a physical Ethernet, the first in order that showed carrier when it was read, or the
first of all. -/
theorem resolution_agrees (cfg : Config) (entries : List String)
    (isPhysicalEthernet : String → Bool) (s : Wired cable)
    (hnames : s.net.ethernets = listPhysicalEthernet entries isPhysicalEthernet) (g g' : γ)
    (r : Except Error Status) (t : Wired cable) (l : Log CtlSig (Wired cable × γ)) (k : String)
    (h : (applyWith cfg).run.Exec (ctlEnv (Wired.env fun c => ¬ c.downs) G).logged
      ((s, g), []) r ((t, g'), l))
    (hk : resolvedIface l = some k) :
    (∀ r' u, (LiveNet.resolveIfacePassive cfg.interface).run.Exec Wired.sysEnv t r' u →
      r' = .ok k) ∧
    (Automatic cfg.interface → k ∈ entries ∧ isPhysicalEthernet k = true ∧
      ∀ u reads, (LiveNet.resolveIface cfg.interface).run.Exec Wired.sysEnv.logged
        (s, []) (.ok k) (u, reads) → s.net.ethernets.Pairwise (· ≤ ·) ∧
          Picked s.net.ethernets (carrierReads reads) k) := by
  obtain ⟨_, ⟨u, gu⟩, seg, ⟨hres, _⟩, _, hon⟩ := exec_applyWith_resolved h hk
  -- the interface as it was resolved, and then kept by all that apply does on it
  obtain ⟨hpick, hpin, hmem⟩ := active_picked hres
  obtain ⟨up, hu⟩ := exec_sysEnv (Wired.exec_net hres)
  have hlisting := exec_listing (Exec.forgetCarriers hon.forget)
  change t.net.listError = u.net.listError ∧ t.net.ethernets = u.net.ethernets at hlisting
  refine ⟨fun r' v hpassive => ?_, fun hauto => ?_⟩
  · refine passive_of_others_down (fun hauto => ⟨?_, ?_⟩) hpin ?_ hpassive
    · have hkept := wpE_iff.mp (wpE_within (I := fun w : Wired cable × γ => w.1.PickedIn k)
        (fun _ _ _ _ hop hs hE => follows_picked hop hs hE) (within_applyOn_follows cfg k)
        (hpick hauto)) r (t, g') hon.forget
      cases r with
      | ok st => exact hkept.2
      | error e => exact hkept
    · -- no other is up, so a passive look finds no other carrier
      have hdown := wpE_iff.mp (wpE_applyOn_down (F := fun c => ¬ c.downs) (fun _ hc => hc)
        (hpick hauto).1) r (t.net, g') (Exec.forgetCarriers hon.forget)
      rw [hlisting.2]
      cases r with
      | ok st => exact hdown
      | error e => exact hdown
    · rw [hlisting.2, hu]
      exact hmem
  · obtain ⟨hentry, hphysical⟩ := mem_listPhysicalEthernet.mp (hnames ▸ hmem)
    refine ⟨hentry, hphysical, fun v reads hreads => ?_⟩
    rw [LiveNet.resolveIface, resolveIfaceWith_auto hauto] at hreads
    obtain ⟨names, w, hlist, hpicked⟩ :=
      wpE_iff.mp wpE_resolveAuto_reads (.ok k) (v, reads) hreads
    have hnone : s.net.listError = none := by
      have := (hpick hauto).1
      rwa [hu] at this
    have hsame : (.ok names : Except Error (List String)) = s.net.listing := hlist.1.1
    rw [Net.listing, hnone] at hsame
    obtain rfl : names = s.net.ethernets := Except.ok.inj hsame
    exact ⟨hnames ▸ listPhysicalEthernet_sorted, hpicked⟩

/-! ### Two runs -/

/-- `eth0` and `eth1` are up with a cable, and only `eth1` shows its carrier yet. -/
def lateCarrier : Wired fun _ => true where
  net := { oneEthernet [] with ethernets := ["eth0", "eth1"] }
  shows := fun i => i = "eth1"
  lit := fun _ _ => ⟨rfl, rfl⟩

def lateHandler : Handler CtlSig (Wired (fun _ => true) × Bool) :=
  ctlHandler Wired.handler (Dnsmasq.handler (.ok false))

theorem lateCarrier_agrees :
    let out := (applyWith {}).run.run lateHandler.logged ((lateCarrier, false), [])
    ∀ r u, (LiveNet.resolveIfacePassive none).run.Exec Wired.sysEnv out.2.1.1 r u →
      r = .ok "eth1" := by
  intro out
  have himpl : lateHandler.Implements (ctlEnv (Wired.env fun c => ¬ c.downs) Dnsmasq.env) :=
    ctlHandler_implements (Wired.handler_implements _) (Dnsmasq.handler_implements (.ok false))
  exact (resolution_agrees {} ["lo", "eth1", "eth0"] (· ≠ "lo") lateCarrier (by decide) false
    out.2.1.2 out.1 out.2.1.1 out.2.2 "eth1" (himpl.logged.exec _ _) (by decide)).1

/-- Every carrier that can be there has come. -/
def Wired.linkUp (s : Wired cable) : Wired cable where
  net := s.net
  shows i := s.net.up i && cable i
  lit _ hi := Bool.and_eq_true_iff.mp hi

/-- Interfaces cannot be set down, and carriers come meanwhile. -/
def stuckHandler : Handler NetSig (Wired cable)
  | .setDown _, s => (.error (.io "RTNETLINK answers: Operation not permitted"), s.linkUp)
  | c, s => Wired.handler c s

theorem stuckHandler_implements :
    (@stuckHandler cable).Implements (Wired.env fun _ => True) := by
  intro c s
  cases c with
  | setDown i =>
    refine ⟨Or.inr ⟨trivial, rfl, rfl⟩, trivial, fun j hj _ => ?_⟩
    exact Bool.and_eq_true_iff.mpr (s.lit j hj)
  | resolveIface configured => exact Wired.handler_implements _ (.resolveIface configured) s
  | resolveIfacePassive configured =>
    exact Wired.handler_implements _ (.resolveIfacePassive configured) s
  | _ => exact Wired.handler_implements _ _ s

def stuckCtl : Handler CtlSig (Wired (fun _ => true) × Bool) :=
  ctlHandler stuckHandler (Dnsmasq.handler (.ok false))

/-- **A failed set-down is seen later**: the carrier of `eth0` has come when it is asked for. -/
theorem failed_set_down_disagrees :
    ¬ ∀ (cfg : Config) (s t : Wired fun _ => true) (g g' : Bool) (r : Except Error Status)
      (l : Log CtlSig (Wired (fun _ => true) × Bool)) (k : String),
      (applyWith cfg).run.Exec (ctlEnv (Wired.env fun _ => True) Dnsmasq.env).logged
        ((s, g), []) r ((t, g'), l) → resolvedIface l = some k →
      ∀ r' u, (LiveNet.resolveIfacePassive cfg.interface).run.Exec Wired.sysEnv t r' u →
        r' = .ok k := by
  intro h
  have himpl : stuckCtl.Implements (ctlEnv (Wired.env fun _ => True) Dnsmasq.env) :=
    ctlHandler_implements stuckHandler_implements (Dnsmasq.handler_implements (.ok false))
  have hpassive := h {} lateCarrier _ false _ _ _ "eth1"
    (himpl.logged.exec (applyWith {}).run ((lateCarrier, false), [])) (by decide) _ _
    (Wired.sysHandler_implements.exec _ _)
  exact absurd hpassive (by decide)

end Micronet

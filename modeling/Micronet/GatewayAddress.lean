import Micronet.LiveDaemon

/-!
# The address dnsmasq is started on

dnsmasq is rendered `interface=i` and `listen-address=gateway.ip`.  The gateway
mode of apply starts it on an address that it has read back or added; a tick that
restarts it takes the interface from the cached status and the address from the
shared configuration, and looks at neither.  A failed apply may leave the two apart
(`Record.Kept` says when it does not), and `failedReload_moved_address` is a run where
they are.

Any call may fail here, and only micronet and its dhclients change addresses.
-/
namespace Micronet
open Interaction Prog Net

variable {γ : Type} {G : Env GwSig γ}

/-! ## A machine whose calls may fail -/

/-- Between two calls: an interface without a dhclient keeps its addresses, and nobody
else starts one. -/
def Net.Drift (s t : Net) : Prop :=
  ∀ i, s.dhclient i = false → t.dhclient i = false ∧ t.addrsOf i = s.addrsOf i

theorem Net.Drift.refl (s : Net) : s.Drift s := fun _ h => ⟨h, rfl⟩

/-- The answers of a call that has done nothing. -/
def NetCall.Fails : (c : NetCall) → c.Ret → Prop
  -- `LiveNet` does not look at what became of the command
  | .flushAddr _, _ => True
  | .ifaceIpv4Cidr _, r => r = none
  | .isPhysicalEthernet _, r | .ifaceHasIpv4 _, r | .ifaceHasAddr _ _, r | .carrierUp _, r
  | .linkIsUp _, r | .ipv4AddrIsLocal _, r | .ping _, r | .dhclientRunning _, r
  | .waitIpv4 _ _, r => r = false
  | c, r => c.isErr r = true

/-- Every call does what it says, or fails and does nothing. -/
def Net.faulty : Env NetSig Net :=
  fun c s r t => ∃ u, Drift s u ∧ (Effect c u r t ∨ c.Fails r ∧ t = u)

/-- Something happens between two calls; what becomes of the DHCP server is left open. -/
def Drifting (s t : Net × γ) : Prop := Drift s.1 t.1

/-- `i` holds `want`, and no dhclient can take it away. -/
def Net.Holds (want : Ipv4Net) (i : String) (s : Net) : Prop :=
  want ∈ s.addrsOf i ∧ s.dhclient i = false

theorem Net.Holds.drift {want : Ipv4Net} {i : String} {s t : Net} (h : s.Holds want i)
    (hd : Drift s t) : t.Holds want i := by
  obtain ⟨hidle, haddr⟩ := hd i h.2
  exact ⟨haddr ▸ h.1, hidle⟩

/-- Only a flush takes an address away. -/
theorem effect_held {c : NetCall} {want : Ipv4Net} {i : String} {s t : Net} {r : c.Ret}
    (hc : c ≠ .flushAddr i) (hidle : s.dhclient i = false) (hs : want ∈ s.addrsOf i)
    (h : Effect c s r t) : want ∈ t.addrsOf i := by
  cases hact : c.acts with
  | false => rwa [eq_of_not_acts hact h]
  | true =>
    cases c <;> simp [NetCall.acts] at hact
    case resolveIface configured =>
      obtain ⟨up, rfl⟩ := effect_resolve (Or.inl h)
      exact hs
    case resolveIfacePassive configured =>
      obtain ⟨up, rfl⟩ := effect_resolve (Or.inr h)
      exact hs
    case bringUp j => obtain ⟨_, rfl⟩ := h; simpa using hs
    case flushAddr j =>
      obtain ⟨_, rfl⟩ := h
      have hij : i ≠ j := fun e => hc (e ▸ rfl)
      simpa [hij] using hs
    case addAddr j c => obtain ⟨_, rfl⟩ := h; simp [hs]
    case setDown j => obtain ⟨_, rfl⟩ := h; simpa using hs
    case stopDhclient j => obtain ⟨_, rfl⟩ := h; simpa using hs
    case startDhclient j => obtain ⟨_, rfl⟩ := h; simpa using hs
    case waitIpv4 j d =>
      obtain ⟨l, hl, _, rfl⟩ := h
      by_cases hij : i = j
      · subst hij
        simpa [hl hidle] using hs
      · simpa [hij] using hs

section Faulty
variable {c : NetCall} {want : Ipv4Net} {i : String} {s t : Net} {r : c.Ret}

theorem faulty_idle (hc : c ≠ .startDhclient i) (hs : s.dhclient i = false)
    (h : faulty c s r t) : t.dhclient i = false := by
  obtain ⟨u, hd, h | ⟨_, rfl⟩⟩ := h
  · exact effect_idle hc (hd i hs).1 h
  · exact (hd i hs).1

theorem faulty_holds (hstart : c ≠ .startDhclient i) (hflush : c ≠ .flushAddr i)
    (hs : s.Holds want i) (h : faulty c s r t) : t.Holds want i := by
  refine ⟨?_, faulty_idle hstart hs.2 h⟩
  obtain ⟨u, hd, h | ⟨_, rfl⟩⟩ := h
  · exact effect_held hflush (hs.drift hd).2 (hs.drift hd).1 h
  · exact (hs.drift hd).1

end Faulty

/-- An address that is read is there. -/
theorem faulty_read {want : Ipv4Net} {i : String} {s t : Net} (hs : s.dhclient i = false)
    (h : faulty (.ifaceIpv4Cidr i) s (some want) t) : t.Holds want i := by
  obtain ⟨u, hd, ⟨hread, rfl⟩ | ⟨hnone, _⟩⟩ := h
  · exact ⟨firstInetCidr_mem hread.symm, (hd i hs).1⟩
  · cases hnone

/-- So is one that is added. -/
theorem faulty_add {want : Ipv4Net} {i : String} {s t : Net} (hs : s.dhclient i = false)
    (h : faulty (.addAddr i want) s (.ok ()) t) : t.Holds want i := by
  refine ⟨?_, faulty_idle (by simp) hs h⟩
  obtain ⟨u, hd, ⟨_, rfl⟩ | ⟨hfail, _⟩⟩ := h
  · simp
  · cases hfail

theorem faulty_stop {i : String} {s t : Net} (h : faulty (.stopDhclient i) s (.ok ()) t) :
    t.dhclient i = false := by
  obtain ⟨u, hd, ⟨_, rfl⟩ | ⟨hfail, _⟩⟩ := h
  · simp
  · cases hfail

/-! ## What apply does to the address of another generation -/

/-- Whether a call that went through gave `want` to `i` (`true`) or took it away. -/
def Event.gives {σ : Type} (i : String) (want : Ipv4Net) : Event CtlSig σ → Option Bool
  | ⟨.net (.flushAddr j), _, .ok _⟩ => if j = i then some false else none
  | ⟨.net (.addAddr j c), _, .ok _⟩ => if j = i ∧ c = want then some true else none
  | _ => none

theorem gives_net {σ : Type} {i : String} {want : Ipv4Net} {c : NetCall} {s : σ} {r : c.Ret}
    (hflush : c ≠ .flushAddr i) (hadd : c ≠ .addAddr i want) :
    Event.gives i want (⟨.net c, s, r⟩ : Event CtlSig σ) = none := by
  cases c with
  | flushAddr j =>
    have hji : j ≠ i := fun e => hflush (e ▸ rfl)
    cases r <;> simp [Event.gives, hji]
  | addAddr j n =>
    have hji : ¬ (j = i ∧ n = want) := by
      rintro ⟨rfl, rfl⟩
      exact hadd rfl
    cases r <;> simp [Event.gives, hji]
  | _ => rfl

/-- By the answers of the log from `s` on, `i` holds `want`. -/
def heldAfter {σ : Type} (i : String) (want : Ipv4Net) (s : Net) (l : Log CtlSig σ) : Bool :=
  (lastOf (Event.gives i want) l).getD (decide (want ∈ s.addrsOf i))

theorem heldAfter_snoc {σ : Type} {i : String} {want : Ipv4Net} {s : Net} {l : Log CtlSig σ}
    {e : Event CtlSig σ} : heldAfter i want s (l ++ [e]) =
      (Event.gives i want e).getD (heldAfter i want s l) := by
  rw [heldAfter, lastOf_append, heldAfter]
  cases he : Event.gives i want e <;> simp [lastOf, he]

/-- What the answers show of `i` is so: no dhclient runs there, and `want` is held where
they say so. -/
def Framed (i : String) (want : Ipv4Net) (s : Net) (t : (Net × γ) × Log CtlSig (Net × γ)) : Prop :=
  s.dhclient i = false →
    t.1.1.dhclient i = false ∧ (heldAfter i want s t.2 = true → want ∈ t.1.1.addrsOf i)

theorem Framed.start {i : String} {want : Ipv4Net} {s : Net × γ} :
    Framed i want s.1 (s, []) := fun h => ⟨h, fun hheld => of_decide_eq_true hheld⟩

/-- A call that fails, or does not start a dhclient on `i`, keeps it. -/
theorem Framed.call {i : String} {want : Ipv4Net} {s : Net} {u v : Net × γ}
    {l : Log CtlSig (Net × γ)} {op : CtlCall} {r : op.Ret}
    (hop : op = .net (.startDhclient i) → op.isErr r = true) (h : Framed i want s (u, l))
    (hE : ctlEnv faulty G op u r v) : Framed i want s (v, l ++ [⟨op, u, r⟩]) := by
  intro hs
  obtain ⟨hidle, hheld⟩ := h hs
  rw [heldAfter_snoc]
  cases op with
  | gw c =>
    obtain ⟨-, hnet⟩ := hE
    exact ⟨by rwa [hnet], by rw [hnet]; exact hheld⟩
  | net c =>
    obtain ⟨hE, -⟩ := hE
    by_cases hstart : c = .startDhclient i
    · subst hstart
      obtain ⟨w, hd, ⟨hr, -⟩ | ⟨-, hw⟩⟩ := hE
      · have := hop rfl
        simp [CtlCall.isErr, NetCall.isErr, hr] at this
      · obtain ⟨hidle', haddr⟩ := hd i hidle
        rw [hw]
        exact ⟨hidle', fun h => haddr ▸ hheld h⟩
    -- a flush that is made empties it, and so nothing is left to show
    refine ⟨faulty_idle hstart hidle hE, ?_⟩
    by_cases hflush : c = .flushAddr i
    · subst hflush
      cases r with
      | ok _ => simp [Event.gives]
      | error e =>
        obtain ⟨w, hd, ⟨hr, -⟩ | ⟨-, hw⟩⟩ := hE
        · cases hr
        · obtain ⟨hidle', haddr⟩ := hd i hidle
          rw [hw]
          exact fun h => haddr ▸ hheld h
    by_cases hadd : c = .addAddr i want
    · subst hadd
      cases r with
      | ok _ => exact fun _ => (faulty_add hidle hE).1
      | error e => exact fun h => (faulty_holds hstart hflush ⟨hheld h, hidle⟩ hE).1
    rw [gives_net hflush hadd]
    exact fun h => (faulty_holds hstart hflush ⟨hheld h, hidle⟩ hE).1

/-! ## The starts of dnsmasq -/

/-- Every call that starts dnsmasq is made where the interface it is given holds the
gateway address of the configuration it is given. -/
def OwnAddress (l : Log CtlSig (Net × γ)) : Prop :=
  ∀ e ∈ l, ∀ cfg i, e.op = .gw (.dhcpReloadOrRestart cfg i) → cfg.gatewayCidr ∈ e.pre.1.addrsOf i

@[simp] theorem ownAddress_nil : OwnAddress ([] : Log CtlSig (Net × γ)) := fun _ h => nomatch h

@[simp] theorem ownAddress_append {l m : Log CtlSig (Net × γ)} :
    OwnAddress (l ++ m) ↔ OwnAddress l ∧ OwnAddress m := List.forall_mem_append

theorem ownAddress_singleton {e : Event CtlSig (Net × γ)} : OwnAddress [e] ↔
    ∀ cfg i, e.op = .gw (.dhcpReloadOrRestart cfg i) → cfg.gatewayCidr ∈ e.pre.1.addrsOf i :=
  List.forall_mem_singleton

/-- The call starts neither a dhclient nor dnsmasq. -/
def CtlCall.Calm : CtlCall → Prop
  | .net (.startDhclient _) | .gw (.dhcpReloadOrRestart _ _) => False
  | _ => True

theorem OwnAddress.calm {l : Log CtlSig (Net × γ)} {e : Event CtlSig (Net × γ)}
    (h : OwnAddress l) (he : CtlCall.Calm e.op) : OwnAddress (l ++ [e]) := by
  refine ownAddress_append.mpr ⟨h, ownAddress_singleton.mpr fun cfg i hop => ?_⟩
  rw [hop] at he
  exact he.elim

/-- Where dnsmasq was started, and what the answers show of `i`, is so. -/
def Sound (i : String) (want : Ipv4Net) (s : Net) (t : (Net × γ) × Log CtlSig (Net × γ)) : Prop :=
  OwnAddress t.2 ∧ Framed i want s t

section Apply
variable {α : Type} {i k : String} {want : Ipv4Net} {s : Net} {cfg : Config}
  {t : (Net × γ) × Log CtlSig (Net × γ)}

theorem Sound.calm {op : CtlCall} {r : op.Ret} {v : Net × γ} (hop : op.Calm)
    (h : Sound i want s t) (hE : ctlEnv faulty G op t.1 r v) :
    Sound i want s (v, t.2 ++ [⟨op, t.1, r⟩]) := by
  refine ⟨h.1.calm hop, h.2.call (fun hstart => ?_) hE⟩
  rw [hstart] at hop
  exact hop.elim

theorem calm_idle {op : CtlCall} {u v : Net × γ} {r : op.Ret} (hop : op.Calm)
    (hu : u.1.dhclient k = false) (hE : ctlEnv faulty G op u r v) : v.1.dhclient k = false := by
  cases op with
  | gw c => rwa [hE.2]
  | net c =>
    refine faulty_idle ?_ hu hE.1
    rintro rfl
    exact hop

/-- A part of apply that starts nothing. -/
theorem wpE_calm {x : Act α} {P : α → Prop} (hx : WithinE CtlCall.Calm P x)
    (ht : Sound i want s t) :
    wpE (ctlEnv faulty G).logged x
      (fun a v => P a ∧ Sound i want s v ∧ (t.1.1.dhclient k = false → v.1.1.dhclient k = false))
      (fun _ v => Sound i want s v) t := by
  refine wpE_mono (wpE_within (I := fun v : (Net × γ) × Log CtlSig (Net × γ) =>
    Sound i want s v ∧ (t.1.1.dhclient k = false → v.1.1.dhclient k = false)) ?_ hx ⟨ht, id⟩)
    (fun _ _ h => h) fun _ _ h => h.1
  rintro op u r ⟨v, m⟩ hop ⟨hu, hidle⟩ ⟨hE, rfl⟩
  exact ⟨hu.calm hop hE, fun h => calm_idle hop (hidle h) hE⟩

theorem within_applyStatic_calm (ip : Ipv4Addr) :
    WithinE CtlCall.Calm (fun st => st.mode = .static) (applyStatic cfg k ip) := by
  simp [applyStatic, CtlCall.Calm]

/-- The probe leaves no dhclient on the interface. -/
theorem wpE_seekOffer_own (ht : Sound i want s t) :
    wpE (ctlEnv faulty G).logged (seekOffer cfg k)
      (fun _ v => Sound i want s v ∧ v.1.1.dhclient k = false) (fun _ v => Sound i want s v) t := by
  have hcalm : ∀ op, CtlCall.Isolates k op → CtlCall.Calm op := by
    intro op hop
    unfold CtlCall.Isolates at hop
    split at hop <;> trivial
  unfold seekOffer
  rw [wpE_bind]
  refine wpE_mono (wpE_calm (k := k) (P := fun _ => True) ?_ ht) ?_ fun _ _ h => h
  · exact withinE_lift.mpr (within_isolateIface hcalm trivial)
  rintro - u ⟨-, hu, -⟩
  rw [wpE_bind]
  refine wpE_mono (wpE_calm (k := k) (P := fun _ => True) ?_ hu) ?_ fun _ _ h => h
  · simp [CtlCall.Calm]
  rintro - v ⟨-, hv, -⟩
  unfold probeOn
  rw [wpE_bind, wpE_mk]
  refine wp_logged_op.mpr fun r w hE => wp_ret.mpr ?_
  have hw := hv.calm (by trivial) hE
  cases r with
  | error e => exact hw
  | ok _ =>
    have hidle : w.1.dhclient k = false := faulty_stop hE.1
    refine wpE_mono (wpE_calm (k := k) (P := fun _ => True) ?_ hw) ?_ fun _ _ h => h
    · simp [CtlCall.Calm]
    · exact fun _ _ h => ⟨h.2.1, h.2.2 hidle⟩

/-- What is known of an apply that returns: where dnsmasq was started, and that a gateway
holds its address. -/
def Status.Rooted (cfg : Config) (st : Status) (t : (Net × γ) × Log CtlSig (Net × γ)) : Prop :=
  OwnAddress t.2 ∧ (st.mode = .gateway → t.1.1.Holds cfg.gatewayCidr st.iface)

/-- A dhclient that has been started ends in an apply that returns. -/
theorem wpE_applyClient_own (ht : Sound i want s t) :
    wpE (ctlEnv faulty G).logged (applyClient cfg k) (fun st v => st.Rooted cfg v)
      (fun _ v => Sound i want s v) t := by
  unfold applyClient
  rw [wpE_bind]
  refine wpE_mono (wpE_calm (k := k) (P := fun _ => True) (by simp [CtlCall.Calm]) ht) ?_
    fun _ _ h => h
  rintro - u ⟨-, hu, -⟩
  rw [wpE_bind]
  refine wpE_mono (wpE_calm (k := k) (P := fun _ => True) (by simp [CtlCall.Calm]) hu) ?_
    fun _ _ h => h
  rintro - v ⟨-, hv, -⟩
  rw [wpE_bind, wpE_mk]
  refine wp_logged_op.mpr fun r w hE => wp_ret.mpr ?_
  have hown : OwnAddress (v.2 ++ [⟨.net (.startDhclient k), v.1, r⟩]) :=
    ownAddress_append.mpr ⟨hv.1, ownAddress_singleton.mpr (by simp)⟩
  cases r with
  | error e => exact ⟨hown, hv.2.call (fun _ => rfl) hE⟩
  | ok _ =>
    simp only [wpE_bind, wpE_lift, wpE_pure, wp_logged_op, wp_ret]
    intro _ _ _ _ _ _ _ _ _
    refine ⟨((hown.calm ?_).calm ?_).calm ?_, by simp⟩ <;> exact trivial

/-- **The gateway mode reads its address or adds it**, and starts dnsmasq on it. -/
theorem wpE_applyGateway_own (ht : Sound i want s t) (hidle : t.1.1.dhclient k = false) :
    wpE (ctlEnv faulty G).logged (applyGateway cfg k) (fun st v => st.Rooted cfg v)
      (fun _ v => Sound i want s v) t := by
  unfold applyGateway
  rw [wpE_bind, wpE_lift]
  refine wp_logged_op.mpr fun r u hE => wp_ret.mpr ?_
  have hu := ht.calm (by trivial) hE
  have hidle' : u.1.dhclient k = false :=
    calm_idle (by trivial) hidle hE
  rw [wpE_bind]
  refine wpE_mono (Q := fun _ v => Sound i want s v ∧ v.1.1.Holds cfg.gatewayCidr k)
    (R := fun _ v => Sound i want s v) (wpE_ite.mpr ⟨fun _ => ?_, fun hread => ?_⟩) ?_
    fun _ _ h => h
  · -- flushed and added again
    rw [wpE_bind]
    refine wpE_mono (wpE_calm (k := k) (P := fun _ => True) (by simp [CtlCall.Calm]) hu) ?_
      fun _ _ h => h
    rintro - v ⟨-, hv, hv'⟩
    rw [wpE_mk]
    refine wp_logged_op.mpr fun r w hadd => wp_ret.mpr ?_
    have hw := hv.calm (by trivial) hadd
    cases r with
    | error e => exact hw
    | ok _ => exact ⟨hw, faulty_add (hv' hidle') hadd.1⟩
  · -- it was read there, so it is there
    obtain rfl : r = some cfg.gatewayCidr := by simpa using hread
    exact ⟨hu, faulty_read hidle hE.1⟩
  -- from here on nothing touches the addresses, so dnsmasq starts on its own
  rintro - v ⟨hv, hholds⟩
  rw [wpE_bind, wpE_mk]
  refine wp_logged_op.mpr fun r w hdel => wp_ret.mpr ?_
  have hw := hv.calm (by trivial) hdel
  cases r with
  | error e => exact hw
  | ok _ =>
    have hholds' : w.1.Holds cfg.gatewayCidr k :=
      faulty_holds (by simp) (by simp) hholds hdel.1
    show wpE _ _ _ _ _
    rw [wpE_bind, wpE_mk]
    refine wp_logged_op.mpr fun r x hstart => wp_ret.mpr ?_
    have hown : OwnAddress
        (v.2 ++ [⟨.net .delDefault, v.1, .ok ()⟩] ++
          [⟨.gw (.dhcpReloadOrRestart cfg k), w, r⟩]) := by
      refine ownAddress_append.mpr ⟨hw.1, ownAddress_singleton.mpr ?_⟩
      rintro _ _ ⟨⟩
      exact hholds'.1
    cases r with
    | error e => exact ⟨hown, hw.2.call (by simp) hstart⟩
    | ok _ =>
      show wpE _ _ _ _ _
      rw [wpE_bind, wpE_lift]
      refine wp_logged_op.mpr fun r y hrunning => wp_ret.mpr ⟨?_, fun _ => ?_⟩
      · exact hown.calm trivial
      · rw [hrunning.2, hstart.2]
        exact hholds'

theorem wpE_applyOn_own (ht : Sound i want s t) :
    wpE (ctlEnv faulty G).logged (applyOn cfg k) (fun st v => st.Rooted cfg v)
      (fun _ v => Sound i want s v) t := by
  unfold applyOn
  rw [wpE_bind]
  refine wpE_mono (wpE_seekOffer_own ht) ?_ fun _ _ h => h
  rintro foreign u ⟨hu, hidle⟩
  cases foreign with
  | true => exact wpE_applyClient_own hu
  | false =>
    show wpE _ (applyLocal cfg k) _ _ u
    unfold applyLocal
    rw [wpE_bind]
    refine wpE_mono (wpE_calm (k := k) (P := fun _ => True) ?_ hu) ?_ fun _ _ h => h
    · simp [assignStatic, CtlCall.Calm]
    rintro - v ⟨-, hv, hv'⟩
    rw [wpE_bind]
    refine wpE_mono (wpE_calm (k := k) (P := fun _ => True) ?_ hv) ?_ fun _ _ h => h
    · simp [askGateway, CtlCall.Calm]
    rintro reachable w ⟨-, hw, hw'⟩
    cases reachable with
    | true =>
      refine wpE_mono (wpE_calm (k := k) (within_applyStatic_calm cfg.staticAddr) hw) ?_
        fun _ _ h => h
      exact fun st v h => ⟨h.2.1.1, fun hmode => by rw [h.1] at hmode; cases hmode⟩
    | false => exact wpE_applyGateway_own hw (hw' (hv' hidle))

theorem wpE_applyWith_own (ht : Sound i want s t) :
    wpE (ctlEnv faulty G).logged (applyWith cfg) (fun st v => st.Rooted cfg v)
      (fun _ v => Sound i want s v) t := by
  rw [applyWith_eq, wpE_bind, wpE_mk, wp_pure]
  cases cfg.validate with
  | error e => exact ht
  | ok _ =>
    show wpE _ _ _ _ _
    rw [wpE_bind]
    refine wpE_mono (wpE_calm (k := "") (P := fun _ => True) (by simp [CtlCall.Calm]) ht) ?_
      fun _ _ h => h
    exact fun _ _ h => wpE_applyOn_own h.2.1

end Apply

/-- **One apply**: it starts dnsmasq on an address its interface holds; a gateway that it
returns holds its address; and when it fails, its answers say what has become of any
other. -/
theorem apply_ownAddress {cfg : Config} {s t : Net × γ} {r : Except Error Status}
    {l : Log CtlSig (Net × γ)}
    (h : (applyWith cfg).run.Exec (ctlEnv faulty G).logged (s, []) r (t, l)) :
    OwnAddress l ∧ (∀ st, r = .ok st → st.mode = .gateway → t.1.Holds cfg.gatewayCidr st.iface) ∧
      ∀ e, r = .error e → ∀ i want, Framed i want s.1 (t, l) := by
  have hsound (i : String) (want : Ipv4Net) : Sound i want s.1 (s, []) :=
    ⟨ownAddress_nil, Framed.start⟩
  have hpost (i : String) (want : Ipv4Net) :=
    wpE_iff.mp (wpE_applyWith_own (hsound i want)) r (t, l) h
  cases r with
  | ok st =>
    obtain ⟨hown, hholds⟩ := hpost "" cfg.gatewayCidr
    refine ⟨hown, ?_, fun _ h => (nomatch h)⟩
    rintro _ ⟨⟩
    exact hholds
  | error e =>
    exact ⟨(hpost "" cfg.gatewayCidr).1, fun _ h => (nomatch h), fun _ _ i want => (hpost i want).2⟩

/-! ## Runs -/

/-- The configuration of an apply that failed. -/
def Event.failedApply {ω : Type} : Event ExtSig ω → Option Config
  | ⟨.apply cfg, _, .error _⟩ => some cfg
  | _ => none

/-- When an apply fails in a step that begins with `Gateway` cached on an interface: by
the answers of its calls, the interface holds the gateway address of the configuration
applied, as it did before or because it was added. -/
def Record.Kept (r : Record ((Net × γ) × Log CtlSig (Net × γ))) : Prop :=
  r.before.1.status.mode = .gateway → r.before.1.status.iface ≠ "" →
    ∀ e ∈ r.events, ∀ cfg ∈ Event.failedApply e,
      heldAfter r.before.1.status.iface cfg.gatewayCidr e.pre.1.1
        (r.after.2.2.drop e.pre.2.length) = true

instance (r : Record ((Net × γ) × Log CtlSig (Net × γ))) : Decidable r.Kept :=
  inferInstanceAs (Decidable (_ → _ → _))

section Run

/-- dnsmasq was started on addresses held, and a cached `Gateway` holds the address of
the shared configuration. -/
def Grounded (m : Mem) (w : (Net × γ) × Log CtlSig (Net × γ)) : Prop :=
  OwnAddress w.2 ∧ (m.status.mode = .gateway → m.status.iface ≠ "" →
    w.1.1.Holds m.config.gatewayCidr m.status.iface)

variable {m m' : Mem} {w w' : (Net × γ) × Log CtlSig (Net × γ)}

theorem Grounded.drift (h : Grounded m w) (hd : Drift w.1.1 w'.1.1) (hl : w'.2 = w.2) :
    Grounded m w' :=
  ⟨hl ▸ h.1, fun hmode hiface => (h.2 hmode hiface).drift hd⟩

theorem grounded_congr (h : Grounded m w) (hs : m'.status = m.status)
    (hc : m'.config = m.config) : Grounded m' w := by
  unfold Grounded
  rwa [hs, hc]

/-- A call that is calm and no flush. -/
theorem Grounded.reads {c : NetCall} {r : c.Ret} (h : Grounded m w) (hcalm : CtlCall.Calm (.net c))
    (hflush : ∀ i, c ≠ .flushAddr i) (hE : (ctlEnv faulty G).logged (.net c) w r w') :
    Grounded m w' := by
  obtain ⟨⟨hN, -⟩, hl⟩ := hE
  refine ⟨hl ▸ h.1.calm hcalm, fun hmode hiface => ?_⟩
  refine faulty_holds ?_ (hflush _) (h.2 hmode hiface) hN
  rintro rfl
  exact hcalm

/-- **An apply of the shared configuration** keeps it, if its failure keeps the address. -/
theorem Grounded.applied {out : Except Error Status} (hm : m.Settled) (hown : OwnAddress w.2)
    (hidle : m.status.mode = .gateway → m.status.iface ≠ "" →
      w.1.1.dhclient m.status.iface = false)
    (hX : liveLog (ctlEnv faulty G) Drifting (.apply m.config) w out w')
    (hkept : m.status.mode = .gateway → m.status.iface ≠ "" → ∀ e, out = .error e →
      heldAfter m.status.iface m.config.gatewayCidr w.1.1 (w'.2.drop w.2.length) = true) :
    Grounded (m.applied out) w' := by
  obtain ⟨seg, hl, hexec⟩ := liveLog_apply hX
  obtain ⟨hseg, hok, herror⟩ := apply_ownAddress hexec
  refine ⟨hl ▸ ownAddress_append.mpr ⟨hown, hseg⟩, fun hmode hiface => ?_⟩
  rw [Mem.applied_config]
  cases out with
  | ok st =>
    rw [Mem.applied_ok_status hm.status_lock] at hmode ⊢
    exact hok st rfl hmode
  | error e =>
    have hheld := hkept hmode hiface e rfl
    rw [hl, List.drop_left] at hheld
    obtain ⟨hidle', hmem⟩ := herror e rfl m.status.iface m.config.gatewayCidr (hidle hmode hiface)
    exact ⟨hmem hheld, hidle'⟩

/-- **The self-heal** starts dnsmasq where the cached mode is `Gateway`, and so on its
address. -/
theorem Grounded.linked {t : Mem × (Net × γ) × Log CtlSig (Net × γ)} (h : Grounded m w)
    (hiface : m.status.iface ≠ "")
    (hexec : (tickCarrier m.status.mode m.status.iface m.config).Exec
      (daemonEnv (liveLog (ctlEnv faulty G) Drifting)) (m, w) () t) : Grounded m t.2 := by
  refine (wp_iff.mp (wp_within
    (I := fun t : Mem × (Net × γ) × Log CtlSig (Net × γ) => Grounded m t.2) ?_
    (within_tickCarrier m.status.mode m.status.iface m.config) h) () t hexec).2
  rintro (f | c) s r u hop hs hE
  · rw [hE.2]
    exact hs
  · cases c with
    | ctl c =>
      obtain ⟨hE, -⟩ := hE
      cases c with
      | net c =>
        cases c <;> first | exact hop.elim | skip
        case ifaceIpv4Cidr i => exact hs.reads (c := .ifaceIpv4Cidr i) trivial (by simp) hE
        case dhclientRunning i => exact hs.reads (c := .dhclientRunning i) trivial (by simp) hE
        case startDhclient i =>
          -- only a `Client` tick starts a dhclient
          refine ⟨?_, fun hmode _ => ?_⟩
          · rw [hE.2]
            exact ownAddress_append.mpr ⟨hs.1, ownAddress_singleton.mpr fun _ _ h => nomatch h⟩
          · have hclient : m.status.mode = .client := hop.1
            rw [hclient] at hmode
            cases hmode
      | gw c =>
        obtain ⟨⟨-, hnet⟩, hl⟩ := hE
        refine ⟨?_, fun hmode hi => hnet ▸ hs.2 hmode hi⟩
        rw [hl]
        cases c with
        | dhcpRunning => exact hs.1.calm trivial
        | dhcpReloadOrRestart cfg i =>
          obtain ⟨hmode, rfl, rfl⟩ := hop
          refine ownAddress_append.mpr ⟨hs.1, ownAddress_singleton.mpr ?_⟩
          rintro _ _ ⟨⟩
          exact (hs.2 hmode hiface).1
        | _ => exact hop.elim
    | _ => exact hop.elim

theorem Grounded.step {k : StepKind} {l : Log ExtSig ((Net × γ) × Log CtlSig (Net × γ))}
    (hm : m.Settled) (h : Grounded m w)
    (hstep : Stepped (liveLog (ctlEnv faulty G) Drifting) m w k l m' w')
    (hkept : Record.Kept ⟨k, (m, w), l, (m', w')⟩) : Grounded m' w' := by
  cases hstep with
  | @loaded cfg out w₁ _ hvalid hload happly =>
    have hcfg : (m.setConfig cfg).config = cfg := Mem.setConfig_config hm.config_lock cfg
    have hidle : m.status.mode = .gateway → m.status.iface ≠ "" →
        w₁.1.1.dhclient m.status.iface = false :=
      fun hmode hiface => ((h.2 hmode hiface).drift hload.1).2
    refine Grounded.applied (hm.setConfig hvalid) (hload.2 ▸ h.1) hidle (hcfg.symm ▸ happly) ?_
    rintro hmode hiface e rfl
    rw [hcfg]
    exact hkept hmode hiface ⟨.apply cfg, w₁, .error e⟩ (by simp) cfg rfl
  | rejected _ hload => exact h.drift hload.1 hload.2
  | reconfigured happly =>
    refine Grounded.applied hm h.1 (fun hmode hiface => (h.2 hmode hiface).2) happly ?_
    rintro hmode hiface e rfl
    exact hkept hmode hiface ⟨.apply m.config, w, .error e⟩ (by simp) m.config rfl
  | unnamed => exact grounded_congr h (m.record_status _) (m.record_config _)
  | @linked now w₁ w₂ _ _ seg c d hiface hup hnow hexec _ hm' =>
    have h₁ : Grounded m w₁ := h.reads (c := .carrierUp m.status.iface) trivial (by simp) hup
    have h₃ : Grounded m w' := (h₁.drift hnow.1 hnow.2).linked (t := (m', w')) hiface hexec
    -- the refresh changes neither the mode nor the interface
    have hs : m'.status = { m.status with cidr := c, dnsmasqRunning := d } := by
      rw [hm', Mem.record_status, Mem.refresh_status (hm.setDownSince none).status_lock]
      rfl
    have hc : m'.config = m.config := by
      rw [hm', Mem.record_config]
      rfl
    unfold Grounded
    rw [hs, hc]
    exact h₃
  | @unlinked now w₁ _ _ hdown hnow _ =>
    have h₁ : Grounded m w₁ := h.reads (c := .carrierUp m.status.iface) trivial (by simp) hdown
    exact grounded_congr (h₁.drift hnow.1 hnow.2) (m.lose_status _) (m.lose_config _)
  | @reselected now out w₁ w₂ _ _ hdown hnow _ happly =>
    have h₁ : Grounded m w₁ := h.reads (c := .carrierUp m.status.iface) trivial (by simp) hdown
    have h₂ : Grounded (m.lose now) w₂ :=
      grounded_congr (h₁.drift hnow.1 hnow.2) (m.lose_status _) (m.lose_config _)
    have hc : (m.lose now).config = m.config := m.lose_config _
    refine Grounded.applied (hm.lose now) h₂.1 (fun hmode hiface => (h₂.2 hmode hiface).2)
      (hc.symm ▸ happly) ?_
    rintro hmode hiface e rfl
    rw [Mem.lose_status] at hmode hiface
    rw [Mem.lose_status, hc]
    exact hkept hmode hiface ⟨.apply m.config, w₂, .error e⟩ (by simp) m.config rfl

/-- **dnsmasq is started on an address that is ours** in every run in which each apply that fails
behind a cached `Gateway` keeps, or adds, the address of the configuration it was given.  Any call
may fail and do nothing, and the server is free (`G`); in between, an interface gains or loses
addresses only by its dhclient.  `hkept` is asked of every step, and is told by the answers of its
calls. -/
theorem daemon_ownAddress (G : Env GwSig γ) (s₀ : Net × γ)
    (h : List (Record ((Net × γ) × Log CtlSig (Net × γ))))
    (s : Mem × (Net × γ) × Log CtlSig (Net × γ))
    (hrun : Run (liveLog (ctlEnv faulty G) Drifting) (s₀, []) h s) (hkept : ∀ r ∈ h, r.Kept) :
    OwnAddress s.2.2 := by
  have hgrounded : (∀ r ∈ h, r.Kept) → Grounded s.1 s.2 := by
    refine hrun.rule (I := fun h m w => (∀ r ∈ h, Record.Kept r) → Grounded m w) ?_ ?_ ?_ ?_
    · rintro cfg w₁ out w₂ hload hvalid happly -
      obtain ⟨seg, hl, hexec⟩ := liveLog_apply happly
      obtain rfl : w₂.2 = seg := hl.trans (by rw [hload.2]; rfl)
      obtain ⟨hown, hok, -⟩ := apply_ownAddress hexec
      refine ⟨hown, fun hmode hiface => ?_⟩
      cases out with
      | ok st => exact hok st rfl hmode
      | error e => exact absurd rfl hiface
    · intro h m w w' hI hpaused hkept
      exact (hI hkept).drift hpaused.drift.1 hpaused.drift.2
    · exact fun h m w t hI hkept => hI hkept
    · intro h m w k l m' w' hm hI hstep hkept
      refine (hI fun r hr => hkept r (List.mem_append_left _ hr)).step hm hstep ?_
      exact hkept _ (List.mem_append_right _ (List.mem_singleton_self _))
  exact (hgrounded hkept).1

end Run

/-! ## Two runs -/

theorem Lan.net_faulty (lan : Lan) : lan.net.Implements Net.faulty := by
  intro op s
  have heffect := lan.net_implements (fun _ => False) op s
  exact ⟨s, .refl s, Or.inl (heffect.resolve_right fun h => h.1)⟩

/-- One linked Ethernet, dnsmasq, and a script of probe answers. -/
abbrev Scripted : Type := Net × Bool × List (Except Error Bool)

def scriptedCtl : Handler CtlSig Scripted := ctlHandler Lan.linked.net Dnsmasq.scripted

theorem scriptedCtl_implements :
    scriptedCtl.Implements (ctlEnv Net.faulty Dnsmasq.scripted.graph) :=
  ctlHandler_implements (Lan.net_faulty _) (Handler.implements_graph _)

/-- The outside of a daemon that starts on the default configuration and reloads
`reloaded`. -/
def reloading (reloaded : Config) : Handler ExtSig (Scripted × Log CtlSig Scripted)
  | .loadJson, s => (.ok reloaded, s)
  | c, s => liveHandler scriptedCtl.logged (.ok {}) c s

theorem reloading_implements (reloaded : Config) : (reloading reloaded).Implements
    (liveLog (ctlEnv Net.faulty Dnsmasq.scripted.graph) Drifting) := by
  have hlive := liveHandler_logged scriptedCtl_implements (D := Drifting)
    (fun s => Drift.refl s.1) (.ok {})
  intro c s
  cases c with
  | loadJson => exact ⟨.refl _, rfl⟩
  | _ => exact hlive _ s

/-- An Ethernet without addresses; the first probe is free, the second fails. -/
def secondProbeFails : Scripted := (oneEthernet [], false, [.ok false, .error (.dhcpProbe "bind")])

/-- The daemon starts, its reload fails at the probe, and it ticks. -/
def failedReload (reloaded : Config) :=
  let s := (boots (reloading reloaded) (secondProbeFails, [])).2
  (records (reloading reloaded) s [.reload, .tick], final (reloading reloaded) s [.reload, .tick])

theorem run_failedReload (reloaded : Config)
    (hstart : (boots (reloading reloaded) (secondProbeFails, [])).1 = .ok ()) :
    Run (liveLog (ctlEnv Net.faulty Dnsmasq.scripted.graph) Drifting) (secondProbeFails, [])
      (failedReload reloaded).1 (failedReload reloaded).2 :=
  run_of_handler (reloading_implements reloaded) hstart _

/-- A reload of the same address fails harmlessly: the tick starts dnsmasq on it. -/
theorem failedReload_same_address : OwnAddress (failedReload {}).2.2.2 :=
  daemon_ownAddress _ _ _ _ (run_failedReload {} (by decide)) (by decide)

/-- The default configuration with another gateway address. -/
def movedGateway : Config := { gateway := { ip := ⟨192, 168, 0, 2⟩ } }

/-- **A start on an address that is not there**: the reload has replaced the shared
configuration and stopped dnsmasq when its probe fails, and the tick starts it for
`192.168.0.2` on an interface that holds `192.168.0.1`. -/
theorem failedReload_moved_address :
    movedGateway.Valid ∧
      Run (liveLog (ctlEnv Net.faulty Dnsmasq.scripted.graph) Drifting) (secondProbeFails, [])
        (failedReload movedGateway).1 (failedReload movedGateway).2 ∧
      ¬ OwnAddress (failedReload movedGateway).2.2.2 := by
  refine ⟨by decide, run_failedReload movedGateway (by decide), fun h => ?_⟩
  have hstart := h ((failedReload movedGateway).2.2.2.get ⟨27, by decide⟩) (List.get_mem ..)
    movedGateway "eth0" (by decide)
  revert hstart
  decide

end Micronet

import Micronet.Isolation

/-!
# The dhclients of earlier applies

A dhclient outlives the link and the address of its interface, and the interface
itself.  Apply stops the one of the interface it chooses; those of the others are
stopped by isolation, which looks at the listed interfaces that are up or have an
address and at no other (`Net.Overlooks`).  So what is alive after an apply is told by
the state its isolation started from (`dhclients_after_apply`).

The listing and the stop of a dhclient do what they say here; any other call may fail.
-/
namespace Micronet
open Interaction Prog Net

variable {γ : Type} {G : Env GwSig γ}

/-- The calls that find a dhclient and stop it. -/
def NetCall.reaps : NetCall → Bool
  | .listEthernet | .stopDhclient _ => true
  | _ => false

namespace Net

/-- The dhclients of the interfaces other than `keep` that are alive in `t` are those of
`s` that isolation in `s` overlooks. -/
def Reaped (keep : String) (s t : Net) : Prop :=
  ∀ i, i ≠ keep → (t.dhclient i = true ↔ s.dhclient i = true ∧ s.Overlooks i)

theorem Reaped.frame {keep : String} {s t u : Net} (h : Reaped keep s t)
    (hu : ∀ i, i ≠ keep → u.dhclient i = t.dhclient i) : Reaped keep s u := by
  intro i hi
  rw [hu i hi]
  exact h i hi

end Net

/-! ## The loop -/

theorem wp_takeDown {name : String} {s : Net × γ} :
    wp (ctlEnv (Net.env fun c => ¬ c.reaps) G) (takeDown name)
      (fun _ t => t.1.dhclient name = false ∧ ∀ i, i ≠ name → Alike i s.1 t.1) s := by
  simp only [takeDown, wp_bind, wp_net, wp_ret, wp_pure]
  intro r t hstop r' u hflush r'' v hdown
  obtain rfl : t = s.1.setDhclient name false := by
    simpa [Net.env, NetCall.reaps, Effect] using (hstop.resolve_right fun h => h.1 rfl).2
  have hu : u.dhclient name = false ∧ ∀ i, i ≠ name → Alike i s.1 u := by
    rcases hflush with ⟨_, rfl⟩ | ⟨_, _, rfl⟩ <;> simp +contextual [Alike]
  rcases hdown with ⟨_, rfl⟩ | ⟨_, _, rfl⟩
  · simpa +contextual [Alike] using hu
  · exact hu

/-- One interface of the loop: its dhclient is stopped unless it is kept or skipped. -/
theorem wp_isolateOne_reaps {keep name : String} {s : Net × γ} :
    wp (ctlEnv (Net.env fun c => ¬ c.reaps) G) (isolateOne keep name) (fun _ t =>
      (∀ i, i ≠ name → Alike i s.1 t.1) ∧
      (name = keep ∨ s.1.Skips name → Alike name s.1 t.1) ∧
      (¬ (name = keep ∨ s.1.Skips name) → t.1.dhclient name = false)) s := by
  refine wp_isolateOne_of (f := id) ?_ ?_ (fun hleft => ?_) fun hseen => ?_
  · simp [Net.env, Effect, NetCall.isErr]
  · simp [Net.env, Effect, NetCall.isErr]
  · exact ⟨fun i _ => .refl i _, fun _ => .refl name _, fun hnot => absurd hleft hnot⟩
  · refine wp_mono wp_takeDown ?_
    rintro _ u ⟨hdead, hothers⟩
    exact ⟨hothers, fun h => absurd h hseen, fun _ => hdead⟩

/-- **The loop stops** the dhclients of what it does not skip, and no other. -/
theorem wp_isolate_forM_reaps {keep : String} {names : List String} {s : Net × γ} :
    wp (ctlEnv (Net.env fun c => ¬ c.reaps) G) (names.forM (isolateOne keep)) (fun _ t =>
      ∀ i, (i = keep ∨ i ∉ names ∨ s.1.Skips i → Alike i s.1 t.1) ∧
        (¬ (i = keep ∨ i ∉ names ∨ s.1.Skips i) → t.1.dhclient i = false)) s := by
  induction names generalizing s with
  | nil => exact fun i => ⟨fun _ => .refl i _, fun h => absurd (Or.inr (Or.inl List.not_mem_nil)) h⟩
  | cons name names ih =>
    refine wp_bind.mpr (wp_mono wp_isolateOne_reaps fun _ u ⟨hothers, hleft, hdead⟩ => ?_)
    refine wp_mono ih fun _ t ht i => ?_
    obtain ⟨hpast, hseen⟩ := ht i
    by_cases hi : i = name
    · subst hi
      by_cases hskip : i = keep ∨ s.1.Skips i
      · have hsu := hleft hskip
        have hut := hpast (hskip.imp_right fun h => Or.inr (hsu.skips.mpr h))
        refine ⟨fun _ => hsu.trans hut, fun h => absurd ?_ h⟩
        exact hskip.imp_right Or.inr
      · refine ⟨fun h => absurd ?_ hskip, fun _ => ?_⟩
        · simpa using h
        · by_cases hagain : i = keep ∨ i ∉ names ∨ u.1.Skips i
          · exact (hpast hagain).2.2.trans (hdead hskip)
          · exact hseen hagain
    · have hsu := hothers i hi
      rw [hsu.skips] at hpast hseen
      simp only [List.mem_cons, hi, false_or]
      exact ⟨fun h => hsu.trans (hpast h), hseen⟩

theorem wp_isolateIface_reaps {keep : String} {s : Net × γ} :
    wp (ctlEnv (Net.env fun c => ¬ c.reaps) G) (isolateIface keep)
      (fun _ t => Reaped keep s.1 t.1) s := by
  unfold isolateIface
  rw [wp_bind, wp_net]
  intro r t hr
  obtain ⟨rfl, rfl⟩ : r = s.1.listing ∧ t = s.1 := by
    simpa [Net.env, Effect, NetCall.reaps] using hr
  rw [wp_ret]
  unfold Net.listing
  cases hlist : s.1.listError with
  | some e =>
    intro i _
    simp [Overlooks, hlist]
  | none =>
    refine wp_mono wp_isolate_forM_reaps fun _ t ht i hi => ?_
    obtain ⟨hpast, hseen⟩ := ht i
    by_cases hover : i ∉ s.1.ethernets ∨ s.1.Skips i
    · rw [(hpast (Or.inr hover)).2.2]
      simp [Overlooks, hlist, hover]
    · rw [hseen (by simpa [hi] using hover)]
      simp [Overlooks, hlist, hover]

/-! ## The rest of apply -/

section Apply
variable {cfg : Config} {k : String}

/-- Calls on `k` leave the dhclients of the others. -/
theorem onlyOn_reaped {F : NetCall → Prop} {op : CtlCall} {s : Net} {t u : Net × γ} {r : op.Ret}
    (hop : op.OnlyOn k) (ht : Reaped k s t.1) (h : ctlEnv (Net.env F) G op t r u) :
    Reaped k s u.1 := by
  cases op with
  | gw c => rwa [h.2]
  | net c =>
    rcases h.1 with he | ⟨_, _, he⟩
    · exact ht.frame fun i hi => ((onlyOn_frame hop he).1 i hi).2.2
    · rwa [he]

/-- Whether it fails or not, apply has reaped what isolation saw. -/
theorem wpE_applyOn_reaped {s : Net × γ} :
    wpE (ctlEnv (Net.env fun c => ¬ c.reaps) G) (applyOn cfg k)
      (fun st t => st.iface = k ∧ Reaped k s.1 t.1) (fun _ t => Reaped k s.1 t.1) s := by
  unfold applyOn seekOffer
  rw [bind_assoc, wpE_bind, wpE_lift]
  refine wp_mono wp_isolateIface_reaps fun _ t ht => ?_
  have hwithin : WithinE (CtlCall.OnlyOn k) (fun st : Status => st.iface = k)
      (attempt (NetOps.bringUp k) >>= fun _ => probeOn cfg k >>= applyOffer cfg k) := by
    simp [probeOn, CtlCall.OnlyOn, within_applyOffer]
  rw [bind_assoc]
  exact wpE_within (fun _ _ _ _ hop hs h => onlyOn_reaped hop hs h) hwithin ht

/-- The call starts no dhclient. -/
def CtlCall.NoStart : CtlCall → Prop
  | .net (.startDhclient _) => False
  | _ => True

/-- Only the client mode starts one. -/
theorem within_applyLocal_noStart :
    WithinE CtlCall.NoStart (fun _ => True) (applyLocal cfg k) := by
  have hmode : ∀ b, WithinE CtlCall.NoStart (fun _ => True)
      (applyMode cfg k cfg.staticAddr (Mode.decide false b)) := by
    intro b
    cases b <;> simp [Mode.decide, applyMode, applyStatic, applyGateway, CtlCall.NoStart]
  simp [applyLocal, assignStatic, askGateway, CtlCall.NoStart, hmode]

theorem noStart_idle {F : NetCall → Prop} {op : CtlCall} {t u : Net × γ} {r : op.Ret}
    (hop : op.NoStart) (ht : t.1.dhclient k = false) (h : ctlEnv (Net.env F) G op t r u) :
    u.1.dhclient k = false := by
  cases op with
  | gw c => rwa [h.2]
  | net c =>
    rcases h.1 with he | ⟨_, _, he⟩
    · refine effect_idle ?_ ht he
      rintro rfl
      exact hop
    · rwa [he]

theorem wpE_applyOffer_started {foreign : Bool} {s : Net × γ} (hs : s.1.dhclient k = false) :
    wpE (ctlEnv (Net.env fun c => ¬ c.reaps) G) (applyOffer cfg k foreign)
      (fun st t => t.1.dhclient k = true → st.mode = .client) (fun _ _ => True) s := by
  cases foreign with
  | true =>
    have hmode : WithinE (fun _ => True) (fun st => st.mode = .client) (applyClient cfg k) := by
      simp [applyClient]
    exact wpE_mono (wpE_within (I := fun _ => True) (fun _ _ _ _ _ _ _ => trivial) hmode trivial)
      (fun _ _ h _ => h.1) fun _ _ _ => trivial
  | false =>
    refine wpE_mono (wpE_within (I := fun t : Net × γ => t.1.dhclient k = false)
      (fun _ _ _ _ hop hs h => noStart_idle hop hs h) within_applyLocal_noStart hs) ?_
      fun _ _ _ => trivial
    rintro st t ⟨_, hidle⟩ halive
    rw [hidle] at halive
    cases halive

theorem wpE_probeOn_idle {s : Net × γ} :
    wpE (ctlEnv (Net.env fun c => ¬ c.reaps) G) (probeOn cfg k)
      (fun _ t => t.1.dhclient k = false) (fun _ _ => True) s := by
  unfold probeOn
  rw [wpE_bind, wpE_mk, wp_net]
  intro r t hstop
  obtain ⟨rfl, rfl⟩ : r = .ok () ∧ t = s.1.setDhclient k false := by
    simpa [Net.env, NetCall.reaps, Effect] using hstop
  rw [wp_ret, post_ok]
  refine wpE_mono (wpE_within (A := CtlCall.NoStart) (P := fun _ => True)
    (I := fun t : Net × γ => t.1.dhclient k = false)
    (fun _ _ _ _ hop hs h => noStart_idle hop hs h) ?_ ?_) (fun _ _ h => h.2) fun _ _ _ => trivial
  · simp [CtlCall.NoStart]
  · simp

/-- The dhclient of the chosen interface is stopped, so one that is alive was started. -/
theorem wpE_applyOn_started {s : Net × γ} :
    wpE (ctlEnv (Net.env fun c => ¬ c.reaps) G) (applyOn cfg k)
      (fun st t => t.1.dhclient k = true → st.mode = .client) (fun _ _ => True) s := by
  unfold applyOn seekOffer
  rw [bind_assoc, wpE_bind]
  refine wpE_iff.mpr fun r t _ => ?_
  cases r with
  | error e => exact trivial
  | ok _ =>
  rw [post_ok, bind_assoc, wpE_bind]
  refine wpE_iff.mpr fun r u _ => ?_
  cases r with
  | error e => exact trivial
  | ok _ =>
  rw [post_ok, wpE_bind]
  exact wpE_mono wpE_probeOn_idle (fun _ _ h => wpE_applyOffer_started h) fun _ _ _ => trivial

end Apply

/-! ## Runs of applies -/

/-- What is told of an apply in a run: its result, the network it leaves, and its calls. -/
structure Applied (γ : Type) where
  /-- The status or the error that it returned. -/
  result : Except Error Status
  /-- The network it left. -/
  after : Net
  /-- Its calls, each with the state it met and the one it left. -/
  log : Log CtlSig (Net × γ)

/-- Interfaces come and go, links and addresses change; dhclients live on. -/
def Net.Meanwhile (s t : Net) : Prop := t.dhclient = s.dhclient

/-- **A run**: one apply after another, of any configurations, and anything but the
dhclients may change between two. -/
inductive Applies (G : Env GwSig γ) : Net → List (Applied γ) → Net → Prop
  | nil (s : Net) : Applies G s [] s
  | snoc {s t u v : Net} {as : List (Applied γ)} {cfg : Config} {g g' : γ}
      {r : Except Error Status} {l : Log CtlSig (Net × γ)} :
      Applies G s as t → t.Meanwhile u →
      (applyWith cfg).run.Exec (ctlEnv (Net.env fun c => ¬ c.reaps) G).logged ((u, g), []) r
        ((v, g'), l) →
      Applies G s (as ++ [⟨r, v, l⟩]) v

/-- **The dhclients after an apply**, in any run of applies.  One that returned a status leaves a
dhclient on its interface only in client mode.  On the others those are left that isolation did
not see, and these as they were when it read the listing (`isolatedFrom`).  The listing and the
stops do what they say, and anything else may fail; between two applies interfaces come and go,
but no dhclient starts or ends. -/
theorem dhclients_after_apply {s t : Net} {as : List (Applied γ)} (h : Applies G s as t) :
    ∀ a ∈ as, ∀ st, a.result = .ok st →
      (a.after.dhclient st.iface = true → st.mode = .client) ∧
      ∃ u, isolatedFrom a.log = some u ∧ Reaped st.iface u.1 a.after := by
  induction h with
  | nil => exact fun _ h => nomatch h
  | @snoc t u v as cfg g g' r l _ _ happly ih =>
    intro a ha st hst
    rcases List.mem_append.mp ha with ha | ha
    · exact ih a ha st hst
    obtain rfl := List.mem_singleton.mp ha
    change r = .ok st at hst
    subst hst
    rcases exec_applyWith happly with ⟨e, he, _⟩ | ⟨k, w, seg, _, _, rfl, hon⟩
    · cases he
    have hreaped := wpE_iff.mp (wpE_applyOn_reaped (G := G)) _ _ hon.forget
    have hstarted := wpE_iff.mp (wpE_applyOn_started (G := G)) _ _ hon.forget
    obtain ⟨rfl, hreaped⟩ := hreaped
    exact ⟨hstarted, w, (isolatedFrom_applyOn hon :), hreaped⟩

/-! ### A cable that is moved -/

/-- A USB Ethernet, and a foreign DHCP server on its cable. -/
def usbEthernet : Net :=
  { ethernets := ["eth1"], up := fun _ => true, addrs := [], dhclient := fun _ => false }

def applyOffered (offer : Bool) (s : Net) :
    Except Error Status × (Net × Bool) × Log CtlSig (Net × Bool) :=
  (applyWith {}).run.run
    (ctlHandler Lan.linked.net (Dnsmasq.handler (.ok offer))).logged ((s, false), [])

theorem exec_applyOffered (offer : Bool) (s : Net) :
    (applyWith {}).run.Exec (ctlEnv (Net.env fun c => ¬ c.reaps) Dnsmasq.env).logged
      ((s, false), []) (applyOffered offer s).1 (applyOffered offer s).2 :=
  ((ctlHandler_implements (Lan.linked.net_implements _)
    (Dnsmasq.handler_implements _)).logged).exec _ _

def Applied.of (out : Except Error Status × (Net × γ) × Log CtlSig (Net × γ)) : Applied γ :=
  ⟨out.1, out.2.1.1, out.2.2⟩

theorem Applies.offered {s t u : Net} {as : List (Applied Bool)} (h : Applies Dnsmasq.env s as t)
    (hu : t.Meanwhile u) (offer : Bool) :
    Applies Dnsmasq.env s (as ++ [.of (applyOffered offer u)]) (applyOffered offer u).2.1.1 :=
  .snoc h hu (exec_applyOffered offer u)

/-- The client mode on it. -/
def plugged : Applied Bool := .of (applyOffered true usbEthernet)

/-- Then other Ethernets, and an apply without an offer. -/
def replugged (ethernets : List String) : Applied Bool :=
  .of (applyOffered false { plugged.after with ethernets := ethernets })

theorem applies_replugged (ethernets : List String) :
    Applies Dnsmasq.env usbEthernet [plugged, replugged ethernets] (replugged ethernets).after :=
  ((Applies.nil usbEthernet).offered (u := usbEthernet) rfl true).offered
    (u := { plugged.after with ethernets := ethernets }) rfl false

/-- With the USB Ethernet still there, its dhclient is stopped. -/
theorem replugged_both_reaped :
    (∃ st, (replugged ["eth0", "eth1"]).result = .ok st) ∧
      ∀ a ∈ [plugged, replugged ["eth0", "eth1"]], ∀ st, a.result = .ok st →
        (a.after.dhclient st.iface = true → st.mode = .client) ∧
          ∃ u, isolatedFrom a.log = some u ∧ Reaped st.iface u.1 a.after :=
  ⟨⟨_, rfl⟩, dhclients_after_apply (applies_replugged ["eth0", "eth1"])⟩

/-- **Unplugged, its dhclient lives on**: the apply is on `eth0` and no client. -/
theorem unplugged_dhclient_lives :
    (∃ t, Applies Dnsmasq.env usbEthernet [plugged, replugged ["eth0"]] t) ∧
      (∀ i, usbEthernet.dhclient i = false) ∧
      ∃ st, (replugged ["eth0"]).result = .ok st ∧ st.iface = "eth0" ∧ st.mode = .gateway ∧
        (replugged ["eth0"]).after.dhclient "eth1" = true :=
  ⟨⟨_, applies_replugged ["eth0"]⟩, fun _ => rfl, _, rfl, by decide, by decide, by decide⟩

end Micronet

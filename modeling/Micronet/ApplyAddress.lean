import Micronet.Machine

/-!
# The address apply leaves

Whether the ping says anything, and whether the reported address is there, both
depend on what the chosen interface holds when the probe is over: the static
address is added only to an interface without any.
-/
namespace Micronet
open Interaction Prog Net

variable {γ : Type} {N : Env NetSig Net} {G : Env GwSig γ}

/-- Calls before the probe's answer: no address is added, none of `k` is removed,
and nothing is pinged. -/
def CtlCall.BeforeOffer (k : String) : CtlCall → Prop
  | .gw _ => True
  | .net (.flushAddr i) => i ≠ k
  | .net (.addAddr _ _) | .net (.waitIpv4 _ _) | .net (.ping _) => False
  | .net _ => True

/-! ## Up to the probe's answer -/

theorem within_seekOffer (cfg : Config) (k : String) :
    WithinE (CtlCall.BeforeOffer k) (fun _ => True) (seekOffer cfg k) := by
  unfold seekOffer
  rw [withinE_bind, withinE_lift]
  refine within_isolateIface (fun op hop => ?_) ?_
  · unfold CtlCall.Isolates at hop
    split at hop <;> trivial
  · simp [probeOn, CtlCall.BeforeOffer]

/-- Such a call keeps the addresses of `k`, and makes no address local. -/
theorem beforeOffer_frame {k : String} {c : NetCall} {s t : Net} {r : c.Ret}
    (hc : CtlCall.BeforeOffer k (.net c)) (h : Effect c s r t) :
    t.addrsOf k = s.addrsOf k ∧ ∀ ip, s.isLocal ip = false → t.isLocal ip = false := by
  cases hact : c.acts with
  | false => simp [eq_of_not_acts hact h]
  | true =>
    cases c <;> simp [CtlCall.BeforeOffer, NetCall.acts] at hc hact
    case resolveIface configured =>
      obtain ⟨up, rfl⟩ := exec_sysEnv h
      exact ⟨rfl, fun _ h => h⟩
    case resolveIfacePassive configured =>
      obtain ⟨up, rfl⟩ := exec_sysEnv h
      exact ⟨rfl, fun _ h => h⟩
    case bringUp i => obtain ⟨_, rfl⟩ := h; simp
    case flushAddr i =>
      obtain ⟨_, rfl⟩ := h
      have hk : ¬ k = i := fun e => hc e.symm
      exact ⟨by simp [hk], fun ip => flush_isLocal s i⟩
    case setDown i => obtain ⟨_, rfl⟩ := h; simp
    case stopDhclient i => obtain ⟨_, rfl⟩ := h; simp
    case startDhclient i => obtain ⟨_, rfl⟩ := h; simp

/-- **The probe is asked on the addresses found**: nothing before its answer adds
an address, removes one of the chosen interface, or pings. -/
theorem wpE_seekOffer (hN : ∀ c s r t, N c s r t → Effect c s r t) {cfg : Config} {k : String}
    {s : Net × γ} :
    let Post : (Net × γ) × Log CtlSig (Net × γ) → Prop := fun t =>
      t.1.1.addrsOf k = s.1.addrsOf k ∧
      (∀ ip, s.1.isLocal ip = false → t.1.1.isLocal ip = false) ∧
      ∀ e ∈ t.2, CtlCall.BeforeOffer k e.op
    wpE (ctlEnv N G).logged (seekOffer cfg k) (fun _ => Post) (fun _ => Post) (s, []) := by
  intro Post
  have hframe : ∀ op (u : Net × γ) r v, CtlCall.BeforeOffer k op →
      (u.1.addrsOf k = s.1.addrsOf k ∧ ∀ ip, s.1.isLocal ip = false → u.1.isLocal ip = false) →
      ctlEnv N G op u r v →
      v.1.addrsOf k = s.1.addrsOf k ∧ ∀ ip, s.1.isLocal ip = false → v.1.isLocal ip = false := by
    intro op u r v hop ⟨haddr, hlocal⟩ h
    cases op with
    | gw c => rw [h.2]; exact ⟨haddr, hlocal⟩
    | net c =>
      obtain ⟨h1, h2⟩ := beforeOffer_frame hop (hN c _ _ _ h.1)
      exact ⟨h1.trans haddr, fun ip hip => h2 ip (hlocal ip hip)⟩
  refine wpE_mono (wpE_within_logged hframe (within_seekOffer cfg k) ⟨rfl, fun _ h => h⟩) ?_ ?_
  · intro _ t ⟨_, ⟨haddr, hlocal⟩, seg, hl, hseg⟩
    exact ⟨haddr, hlocal, by rwa [hl, List.nil_append]⟩
  · intro _ t ⟨⟨haddr, hlocal⟩, seg, hl, hseg⟩
    exact ⟨haddr, hlocal, by rwa [hl, List.nil_append]⟩

/-! ## A live host at the gateway address -/

/-- A ping of `h` succeeds exactly when a live host `h` is on the LAN of `k`, and
`k` holds an address whose prefix contains `h`. -/
def Net.PingsOn (k : String) (live : Ipv4Addr → Prop) : (c : NetCall) → Net → c.Ret → Prop
  | .ping h, s, r => r = true ↔ live h ∧ ∃ n ∈ s.addrsOf k, n.contains h = true
  | _, _, _ => True

/-- Every call does what it says, on an isolated LAN with the hosts `live`. -/
def Net.onLan (k : String) (live : Ipv4Addr → Prop) : Env NetSig Net :=
  fun c s r t => Effect c s r t ∧ PingsOn k live c s r

/-- The call adds `ip` to an interface. -/
def CtlCall.adds (ip : Ipv4Addr) : CtlCall → Bool
  | .net (.addAddr _ c) => c.addr = ip
  | _ => false

/-- No call of the log adds `ip` to an interface. -/
def NeverAdds {σ : Type} (ip : Ipv4Addr) (l : Log CtlSig σ) : Prop :=
  ∀ e ∈ l, e.op.adds ip = false

section NeverAdds
variable {σ : Type} {ip : Ipv4Addr}

instance (l : Log CtlSig σ) : Decidable (NeverAdds ip l) :=
  inferInstanceAs (Decidable (∀ e ∈ l, e.op.adds ip = false))

@[simp] theorem neverAdds_nil : NeverAdds ip ([] : Log CtlSig σ) := fun _ h => nomatch h

@[simp] theorem neverAdds_cons {e : Event CtlSig σ} {l : Log CtlSig σ} :
    NeverAdds ip (e :: l) ↔ e.op.adds ip = false ∧ NeverAdds ip l := List.forall_mem_cons

@[simp] theorem neverAdds_append {l m : Log CtlSig σ} :
    NeverAdds ip (l ++ m) ↔ NeverAdds ip l ∧ NeverAdds ip m := List.forall_mem_append

end NeverAdds

/-- Before the probe's answer nothing is added and no ping answered. -/
theorem beforeOffer_quiet {σ : Type} {k : String} {l : Log CtlSig σ}
    (hl : ∀ e ∈ l, CtlCall.BeforeOffer k e.op) :
    (∀ ip, NeverAdds ip l) ∧ gatewayAnswered l = false := by
  refine ⟨fun ip e he => ?_, List.any_eq_false.mpr fun e he => ?_⟩
  · have hbefore := hl e he
    cases hop : e.op with
    | gw c => rfl
    | net c =>
      rw [hop] at hbefore
      cases c <;> first | rfl | exact hbefore.elim
  · have hbefore := hl e he
    obtain ⟨op, pre, ret⟩ := e
    cases op with
    | gw c => simp [Event.pingAnswered]
    | net c => cases c <;> first | exact hbefore.elim | simp [Event.pingAnswered]

/-- The chosen interface with the static address, if it had none. -/
def Net.withStatic (cfg : Config) (k : String) (s : Net) : Net :=
  if s.addrsOf k = [] then s.addAddr k cfg.staticCidr else s

theorem withStatic_addrsOf (cfg : Config) (k : String) (s : Net) :
    (s.withStatic cfg k).addrsOf k =
      if s.addrsOf k = [] then [cfg.staticCidr] else s.addrsOf k := by
  unfold withStatic
  split
  · rename_i h
    exact addAddr_addrsOf_self s k _ h
  · rfl

theorem withStatic_isLocal {cfg : Config} {k : String} {s : Net} {ip : Ipv4Addr}
    (hs : s.isLocal ip = false) (hip : cfg.staticAddr ≠ ip) :
    (s.withStatic cfg k).isLocal ip = false := by
  unfold withStatic
  split
  · rw [addAddr_isLocal, hs]
    simp [Config.staticCidr, hip]
  · exact hs

/-- What holds of the log after the static address was added, or not. -/
theorem wpE_assignStatic (hN : ∀ c s r t, N c s r t → Effect c s r t) {cfg : Config} {k : String}
    {s : Net × γ} {l : Log CtlSig (Net × γ)} :
    wpE (ctlEnv N G).logged (assignStatic cfg k) (fun _ t =>
      t.1 = (s.1.withStatic cfg k, s.2) ∧ gatewayAnswered t.2 = gatewayAnswered l ∧
      ∀ ip, cfg.staticAddr ≠ ip → NeverAdds ip l → NeverAdds ip t.2) (fun _ _ => False) (s, l) := by
  unfold assignStatic
  simp only [wpE_bind, wpE_lift, wpE_ite, wpE_mk, wp_logged_net, wp_ret, wpE_pure]
  intro r t hr
  obtain ⟨rfl, rfl⟩ := hN _ _ _ _ hr
  refine ⟨fun hsome => ?_, fun hnone r t hr => ?_⟩
  · have hne : s.1.addrsOf k ≠ [] := by
      intro he
      rw [firstInetCidr_eq_none.mpr he] at hsome
      cases hsome
    simp +contextual [withStatic, hne, gatewayAnswered, Event.pingAnswered, CtlCall.adds]
  · obtain ⟨rfl, rfl⟩ := hN _ _ _ _ hr
    have he : s.1.addrsOf k = [] := by simpa [firstInetCidr_eq_none] using hnone
    simp +contextual [withStatic, he, gatewayAnswered, Event.pingAnswered, CtlCall.adds,
      Config.staticCidr]

/-- The ping is answered from an address whose prefix has the gateway's. -/
theorem wpE_askGateway_live {cfg : Config} {k : String} {live : Ipv4Addr → Prop}
    (hlive : live cfg.gateway.ip) {s : Net × γ} {l : Log CtlSig (Net × γ)}
    (hlocal : s.1.isLocal cfg.gateway.ip = false)
    (hin : ∃ n ∈ s.1.addrsOf k, n.contains cfg.gateway.ip = true)
    (hl : NeverAdds cfg.gateway.ip l) :
    wpE (ctlEnv (Net.onLan k live) G).logged (askGateway cfg)
      (fun b t => b = true ∧ NeverAdds cfg.gateway.ip t.2)
      (fun _ _ => False) (s, l) := by
  unfold askGateway
  simp [Net.onLan, Net.PingsOn, Effect, hlocal, hlive, hl, CtlCall.adds]
  simpa using hin

theorem within_applyStatic (cfg : Config) (k : String) (ip ip' : Ipv4Addr) :
    WithinE (fun c : CtlCall => c.adds ip' = false) (fun st => st.mode = .static)
      (applyStatic cfg k ip) := by
  simp [applyStatic, CtlCall.adds]

theorem within_applyClient (cfg : Config) (k : String) (ip' : Ipv4Addr) :
    WithinE (fun c : CtlCall => c.adds ip' = false) (fun st => st.mode = .client)
      (applyClient cfg k) := by
  simp [applyClient, CtlCall.adds]

/-- What a program writes down, when it adds no `ip`. -/
theorem wpE_neverAdds {E : Env CtlSig (Net × γ)} {x : Act Status} {P : Status → Prop}
    {ip : Ipv4Addr} {s : Net × γ} {l : Log CtlSig (Net × γ)}
    (hx : WithinE (fun c : CtlCall => c.adds ip = false) P x) (hl : NeverAdds ip l) :
    wpE E.logged x (fun st t => P st ∧ NeverAdds ip t.2) (fun _ t => NeverAdds ip t.2) (s, l) := by
  refine wpE_mono (wpE_within_logged (I := fun _ => True) ?_ hx trivial) ?_ ?_
  · exact fun _ _ _ _ _ _ _ => trivial
  · intro st t ⟨hP, _, seg, ht, hseg⟩
    exact ⟨hP, by rw [ht, neverAdds_append]; exact ⟨hl, hseg⟩⟩
  · intro _ t ⟨_, seg, ht, hseg⟩
    rw [ht, neverAdds_append]
    exact ⟨hl, hseg⟩

/-- With a live host at `gateway.ip`, and an address the ping can leave from, the
mode is not gateway. -/
theorem wpE_applyOn_live {cfg : Config} (hvalid : cfg.Valid) {k : String}
    {live : Ipv4Addr → Prop} (hlive : live cfg.gateway.ip) {s : Net × γ}
    (hlocal : s.1.isLocal cfg.gateway.ip = false)
    (haddr : s.1.addrsOf k = [] ∨ ∃ n ∈ s.1.addrsOf k, n.contains cfg.gateway.ip = true) :
    wpE (ctlEnv (Net.onLan k live) G).logged (applyOn cfg k)
      (fun st t => st.mode ≠ .gateway ∧ NeverAdds cfg.gateway.ip t.2)
      (fun _ t => NeverAdds cfg.gateway.ip t.2) (s, []) := by
  have hN : ∀ c s r t, Net.onLan k live c s r t → Effect c s r t := fun _ _ _ _ h => h.1
  unfold applyOn
  rw [wpE_bind]
  refine wpE_mono (wpE_seekOffer hN) ?_ fun _ t ⟨_, _, hbefore⟩ =>
    (beforeOffer_quiet hbefore).1 _
  intro foreign t ⟨haddrs, hlocals, hbefore⟩
  have hl := (beforeOffer_quiet hbefore).1 cfg.gateway.ip
  cases foreign with
  | true =>
    refine wpE_mono (wpE_neverAdds (within_applyClient cfg k cfg.gateway.ip) hl) ?_ fun _ _ h => h
    exact fun st _ h => ⟨by simp [h.1], h.2⟩
  | false =>
    show wpE _ (applyLocal cfg k) _ _ t
    unfold applyLocal
    rw [wpE_bind]
    refine wpE_mono (wpE_assignStatic hN) ?_ fun _ _ h => h.elim
    intro _ u ⟨hu, _, hadds⟩
    -- the ping needs an address whose prefix holds the gateway
    have hreach : ∃ n ∈ u.1.1.addrsOf k, n.contains cfg.gateway.ip = true := by
      rw [hu, withStatic_addrsOf, haddrs]
      rcases haddr with he | ⟨n, hn, hin⟩
      · exact ⟨cfg.staticCidr, by simp [he], hvalid.staticCidr_contains⟩
      · have hne : s.1.addrsOf k ≠ [] := List.ne_nil_of_mem hn
        exact ⟨n, by simpa [hne] using hn, hin⟩
    have hforeign : u.1.1.isLocal cfg.gateway.ip = false := by
      rw [hu]
      exact withStatic_isLocal (hlocals _ hlocal) hvalid.staticAddr_ne
    rw [wpE_bind]
    refine wpE_mono (wpE_askGateway_live hlive hforeign hreach (hadds _ hvalid.staticAddr_ne hl))
      ?_ fun _ _ h => h.elim
    intro b v ⟨hb, hv⟩
    subst hb
    refine wpE_mono (wpE_neverAdds (within_applyStatic cfg k cfg.staticAddr cfg.gateway.ip) hv) ?_
      fun _ _ h => h
    exact fun st _ h => ⟨by simp [h.1], h.2⟩

/-- **No duplicate gateway address**: when another host is live at `gateway.ip`, and
the chosen interface holds no address or one whose prefix contains it, apply does
not end in gateway mode and never adds `gateway.ip` to an interface. -/
theorem live_gateway_not_duplicated (cfg : Config) (k : String) (live : Ipv4Addr → Prop)
    (hlive : live cfg.gateway.ip) (s : Net) (hlocal : s.isLocal cfg.gateway.ip = false)
    (haddr : s.addrsOf k = [] ∨ ∃ n ∈ s.addrsOf k, n.contains cfg.gateway.ip = true)
    (g : γ) (r : Except Error Status) (t : Net) (g' : γ) (l : Log CtlSig (Net × γ))
    (h : (applyWith cfg).run.Exec (ctlEnv (Net.onLan k live) G).logged ((s, g), []) r ((t, g'), l))
    (hk : resolvedIface l = some k) :
    (∀ st, r = .ok st → st.mode ≠ .gateway) ∧ NeverAdds cfg.gateway.ip l := by
  obtain ⟨hvalid, ⟨u, gu⟩, seg, ⟨hres, _⟩, rfl, hon⟩ := exec_applyWith_resolved h hk
  obtain ⟨up, rfl⟩ := exec_sysEnv hres.1
  have hpost := wpE_iff.mp (wpE_applyOn_live (G := G) hvalid hlive hlocal haddr) r _ hon
  rw [neverAdds_cons]
  cases r with
  | ok st =>
    refine ⟨fun st' hst => ?_, rfl, hpost.2⟩
    obtain rfl := Except.ok.inj hst
    exact hpost.1
  | error e => exact ⟨fun _ hst => (nomatch hst), rfl, hpost⟩

/-! ### Runs with a live host -/

/-- The LAN of `k` with the hosts of a list. -/
def Lan.withHosts (k : String) (hosts : List Ipv4Addr) : Lan :=
  { Lan.silent with pings := fun s h => decide (h ∈ hosts) && (s.addrsOf k).any (·.contains h) }

theorem Lan.withHosts_implements (k : String) (hosts : List Ipv4Addr) :
    (Lan.withHosts k hosts).net.Implements (Net.onLan k (· ∈ hosts)) := by
  intro op s
  have heffect := (Lan.withHosts k hosts).net_implements (fun _ => False) op s
  refine ⟨heffect.resolve_right fun h => h.1, ?_⟩
  cases op with
  | ping h => simp [PingsOn, Lan.net, Lan.withHosts]
  | _ => exact trivial

/-- An apply of the default configuration on it, its gateway address taken. -/
def applyTaken (l : List Ipv4Net) :
    Except Error Status × (Net × Bool) × Log CtlSig (Net × Bool) :=
  (applyWith {}).run.run (ctlHandler (Lan.withHosts "eth0" [defaultGatewayIp]).net
    (Dnsmasq.handler (.ok false))).logged ((oneEthernet l, false), [])

theorem exec_applyTaken (l : List Ipv4Net) :
    (applyWith {}).run.Exec
      (ctlEnv (Net.onLan "eth0" (· ∈ [defaultGatewayIp])) Dnsmasq.env).logged
      ((oneEthernet l, false), []) (applyTaken l).1 (applyTaken l).2 :=
  ((ctlHandler_implements (Lan.withHosts_implements _ _)
    (Dnsmasq.handler_implements _)).logged).exec _ _

theorem unaddressed_not_duplicated :
    (∀ st, (applyTaken []).1 = .ok st → st.mode ≠ .gateway) ∧
      NeverAdds defaultGatewayIp (applyTaken []).2.2 :=
  live_gateway_not_duplicated {} "eth0" (· ∈ [defaultGatewayIp]) (by decide) (oneEthernet [])
    (by decide) (Or.inl rfl) false _ _ _ _ (exec_applyTaken []) (by decide)

/-- A leftover address of another subnet keeps the static one off the interface,
the ping has nowhere to leave from, and the taken address is added. -/
theorem leftover_subnet_duplicates :
    let s := oneEthernet [.slash24 ⟨10, 0, 0, 5⟩]
    let out := applyTaken [.slash24 ⟨10, 0, 0, 5⟩]
    (applyWith {}).run.Exec
        (ctlEnv (Net.onLan "eth0" (· ∈ [defaultGatewayIp])) Dnsmasq.env).logged
        ((s, false), []) out.1 out.2 ∧
      s.isLocal defaultGatewayIp = false ∧ resolvedIface out.2.2 = some "eth0" ∧
      lastProbe out.2.2 = some (.ok false) ∧
      (∃ st, out.1 = .ok st ∧ st.mode = .gateway) ∧ ¬ NeverAdds defaultGatewayIp out.2.2 := by
  exact ⟨exec_applyTaken _, by decide, by decide, by decide, ⟨_, rfl, by decide⟩, by decide⟩

/-! ## The reported address -/

/-- The interface of the status holds the address it reports, and the address of
its mode. -/
def Status.Held (cfg : Config) (st : Status) (t : Net) : Prop :=
  (∀ c, st.cidr = some c → c ∈ t.addrsOf st.iface) ∧
  (st.mode = .static → cfg.staticCidr ∈ t.addrsOf st.iface) ∧
  (st.mode = .gateway → cfg.gatewayCidr ∈ t.addrsOf st.iface)

section Held
variable (cfg : Config) {k : String} {s : Net × γ} {l : Log CtlSig (Net × γ)}

/-- The client reports what it reads. -/
theorem wpE_applyClient_held :
    wpE (ctlEnv (Net.env fun _ => False) G).logged (applyClient cfg k)
      (fun st t => st.Held cfg t.1.1 ∧ gatewayAnswered t.2 = gatewayAnswered l)
      (fun _ t => gatewayAnswered t.2 = gatewayAnswered l) (s, l) := by
  simp [-Bool.forall_bool, applyClient, Net.env, Effect, Status.Held, gatewayAnswered,
    Event.pingAnswered, forall_except]
  intro _ _ _ _ t _ _ _ _ _ _ c hc
  exact firstInetCidr_mem hc

/-- The gateway address is read back or added. -/
theorem wpE_applyGateway_held :
    wpE (ctlEnv (Net.env fun _ => False) G).logged (applyGateway cfg k)
      (fun st t => st.Held cfg t.1.1 ∧ gatewayAnswered t.2 = gatewayAnswered l)
      (fun _ t => gatewayAnswered t.2 = gatewayAnswered l) (s, l) := by
  simp [-Bool.forall_bool, applyGateway, Net.env, Effect, Status.Held, gatewayAnswered,
    Event.pingAnswered, forall_except]
  intro hread _ _ _ _ _ _
  exact firstInetCidr_mem hread

/-- The static address is neither read nor added here. -/
theorem wpE_applyStatic_held :
    wpE (ctlEnv (Net.env fun _ => False) G).logged (applyStatic cfg k cfg.staticAddr)
      (fun st t => (st.Held cfg t.1.1 ↔ cfg.staticCidr ∈ s.1.addrsOf k) ∧
        aborted t.2 = false ∧ gatewayAnswered t.2 = gatewayAnswered l)
      (fun _ t => aborted t.2 = true) (s, l) := by
  simp [-Bool.forall_bool, applyStatic, Net.env, Effect, Status.Held, aborted, Event.failed,
    gatewayAnswered, Event.pingAnswered, CtlCall.isErr, GwCall.isErr, Config.staticCidr,
    forall_except]

theorem wpE_askGateway_held :
    wpE (ctlEnv (Net.env fun _ => False) G).logged (askGateway cfg)
      (fun b t => t.1 = s ∧ gatewayAnswered t.2 = (gatewayAnswered l || b)) (fun _ _ => False)
      (s, l) := by
  simp [-Bool.forall_bool, askGateway, Net.env, Effect, gatewayAnswered, Event.pingAnswered]

/-- **The ping decides whether the report is real**: unanswered, the address is
read or added; answered, it is there only if it was, or nothing was. -/
theorem wpE_applyOffer_held (foreign : Bool) (hl : gatewayAnswered l = false) :
    wpE (ctlEnv (Net.env fun _ => False) G).logged (applyOffer cfg k foreign)
      (fun st t => if gatewayAnswered t.2 then
          aborted t.2 = false ∧
            (st.Held cfg t.1.1 ↔ s.1.addrsOf k = [] ∨ cfg.staticCidr ∈ s.1.addrsOf k)
        else st.Held cfg t.1.1)
      (fun _ t => gatewayAnswered t.2 = true → aborted t.2 = true) (s, l) := by
  cases foreign with
  | true =>
    refine wpE_mono (wpE_applyClient_held cfg) ?_ ?_
    · intro st t ⟨hheld, ht⟩
      simpa [ht, hl] using hheld
    · intro _ t ht hpinged
      rw [ht, hl] at hpinged
      cases hpinged
  | false =>
    show wpE _ (applyLocal cfg k) _ _ _
    unfold applyLocal
    rw [wpE_bind]
    refine wpE_mono (wpE_assignStatic ?_) ?_ fun _ _ h => h.elim
    · exact fun _ _ _ _ h => h.resolve_right fun h => h.1
    intro _ u ⟨hu, hpinged, _⟩
    rw [wpE_bind]
    refine wpE_mono (wpE_askGateway_held cfg) ?_ fun _ _ h => h.elim
    intro b v ⟨hv, hasked⟩
    rw [hpinged, hl, Bool.false_or] at hasked
    cases b with
    | true =>
      refine wpE_mono (wpE_applyStatic_held cfg) ?_ fun _ _ h _ => h
      intro st t ⟨hheld, hok, ht⟩
      rw [ht, hasked, if_pos rfl]
      -- the static address was added only where there was none
      refine ⟨hok, hheld.trans ?_⟩
      rw [hv, hu, withStatic_addrsOf]
      by_cases hempty : s.1.addrsOf k = [] <;> simp [hempty]
    | false =>
      refine wpE_mono (wpE_applyGateway_held cfg) ?_ ?_
      · intro st t ⟨hheld, ht⟩
        simpa [ht, hasked] using hheld
      · intro _ t ht hpinged
        rw [ht, hasked] at hpinged
        cases hpinged

theorem wpE_applyOn_held :
    wpE (ctlEnv (Net.env fun _ => False) G).logged (applyOn cfg k)
      (fun st t => if gatewayAnswered t.2 then
          aborted t.2 = false ∧
            (st.Held cfg t.1.1 ↔ s.1.addrsOf k = [] ∨ cfg.staticCidr ∈ s.1.addrsOf k)
        else st.Held cfg t.1.1)
      (fun _ t => gatewayAnswered t.2 = true → aborted t.2 = true) (s, []) := by
  have hN : ∀ c s r t, Net.env (fun _ => False) c s r t → Effect c s r t :=
    fun _ _ _ _ h => h.resolve_right fun h => h.1
  unfold applyOn
  rw [wpE_bind]
  refine wpE_mono (wpE_seekOffer hN) ?_ ?_
  · intro foreign t ⟨haddrs, _, hbefore⟩
    have hoffer := wpE_applyOffer_held (G := G) cfg (k := k) (s := t.1) foreign
      (beforeOffer_quiet hbefore).2
    rwa [haddrs] at hoffer
  · intro _ t ⟨_, _, hbefore⟩ hpinged
    rw [(beforeOffer_quiet hbefore).2] at hpinged
    cases hpinged

end Held

/-- **The reported address is real, exactly unless** the gateway answers the ping,
apply goes through, and the chosen interface came with addresses without the
static one among them. -/
theorem reported_address_held_iff (cfg : Config) (s : Net) (g : γ) (r : Except Error Status)
    (t : Net) (g' : γ) (l : Log CtlSig (Net × γ))
    (h : (applyWith cfg).run.Exec (ctlEnv (Net.env fun _ => False) G).logged ((s, g), []) r
      ((t, g'), l)) :
    (∀ st, r = .ok st → st.Held cfg t) ↔
      ∀ k, resolvedIface l = some k → gatewayAnswered l = true → aborted l = false →
        s.addrsOf k = [] ∨ cfg.staticCidr ∈ s.addrsOf k := by
  rcases exec_applyWith h with ⟨e, rfl, ⟨_, rfl⟩ | rfl⟩ | ⟨k, ⟨u, gu⟩, seg, _, ⟨hres, _⟩, rfl, hon⟩
  · exact ⟨fun _ k hk => (nomatch hk), fun _ st hst => (nomatch hst)⟩
  · exact ⟨fun _ k hk => (nomatch hk), fun _ st hst => (nomatch hst)⟩
  · obtain ⟨up, rfl⟩ : ∃ up, u = { s with up := up } := by
      rcases hres with hres | ⟨hfail, _⟩
      · exact exec_sysEnv hres
      · exact hfail.elim
    have hpost := wpE_iff.mp (wpE_applyOn_held (G := G) cfg) r _ hon
    have hpinged : ∀ e : Event CtlSig (Net × γ), Event.pingAnswered e = false →
        gatewayAnswered (e :: seg) = gatewayAnswered seg := by
      intro e he
      simp [gatewayAnswered, he]
    rw [hpinged _ rfl, aborted_cons rfl]
    cases r with
    | ok st =>
      constructor
      · intro hheld k' hk' hp _
        obtain rfl : k = k' := Option.some.inj hk'
        rw [post_ok, if_pos hp] at hpost
        exact hpost.2.mp (hheld st rfl)
      · intro hcond st' hst
        obtain rfl := Except.ok.inj hst
        by_cases hp : gatewayAnswered seg = true
        · rw [post_ok, if_pos hp] at hpost
          exact hpost.2.mpr (hcond k rfl hp hpost.1)
        · rw [post_ok, if_neg hp] at hpost
          exact hpost
    | error e =>
      constructor
      · intro _ k' _ hp ha
        rw [hpost hp] at ha
        cases ha
      · exact fun _ st hst => (nomatch hst)

/-! ### Runs with an answered ping -/

/-- An apply of the default configuration on one Ethernet, its ping answered. -/
def applyAnswered (l : List Ipv4Net) :
    Except Error Status × (Net × Bool) × Log CtlSig (Net × Bool) :=
  (applyWith {}).run.run (ctlHandler { Lan.silent with pings := fun _ _ => true }.net
    (Dnsmasq.handler (.ok false))).logged ((oneEthernet l, false), [])

theorem exec_applyAnswered (l : List Ipv4Net) :
    (applyWith {}).run.Exec (ctlEnv (Net.env fun _ => False) Dnsmasq.env).logged
      ((oneEthernet l, false), []) (applyAnswered l).1 (applyAnswered l).2 :=
  ((ctlHandler_implements (Lan.net_implements _ _) (Dnsmasq.handler_implements _)).logged).exec _ _

theorem unaddressed_static_held :
    ∃ st, (applyAnswered []).1 = .ok st ∧ st.mode = .static ∧
      st.Held {} (applyAnswered []).2.1.1 := by
  have hk : resolvedIface (applyAnswered []).2.2 = some "eth0" := by decide
  refine ⟨_, rfl, by decide, (reported_address_held_iff {} (oneEthernet []) false _ _ _ _
    (exec_applyAnswered [])).mpr (fun k hk' _ _ => ?_) _ rfl⟩
  obtain rfl : "eth0" = k := Option.some.inj (hk.symm.trans hk')
  exact Or.inl rfl

/-- A leftover address of the LAN answers the ping, and the static address is
reported without being there. -/
theorem leftover_address_misreported :
    let s := oneEthernet [.slash24 ⟨192, 168, 0, 77⟩]
    let out := applyAnswered [.slash24 ⟨192, 168, 0, 77⟩]
    (applyWith {}).run.Exec (ctlEnv (Net.env fun _ => False) Dnsmasq.env).logged
        ((s, false), []) out.1 out.2 ∧
      ∃ st, out.1 = .ok st ∧ st.mode = .static ∧ st.cidr = some (.slash24 ⟨192, 168, 0, 252⟩) ∧
        out.2.1.1.addrsOf st.iface = [.slash24 ⟨192, 168, 0, 77⟩] ∧ ¬ st.Held {} out.2.1.1 := by
  refine ⟨exec_applyAnswered _, _, rfl, by decide, by decide, by decide, fun h => ?_⟩
  exact absurd (h.1 _ rfl) (by decide)

end Micronet

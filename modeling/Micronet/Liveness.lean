import Micronet.Carriers
import Micronet.DaemonRun
import Micronet.Ipc
import Micronet.Routes

/-!
# The liveness check

`check` asks the daemon; where its socket cannot be reached, the legacy names of the
program look at the interface themselves.  They resolve it as an apply does, and the
active resolution sets candidates up when none shows carrier: that is the one way for a
check to change the network (`check_unchanged_iff`).
-/
namespace Micronet
open Interaction Prog

/-- How a missing daemon socket is treated. -/
inductive CheckStyle
  | daemon
  | legacy
deriving DecidableEq, Repr

def checkStyleFromArgv0 (name : String) : CheckStyle :=
  if name = "configure-ethernet" ∨ name = "configure-dhcp" then .legacy else .daemon

/-- What a check calls. -/
inductive CheckCall
  /-- `ipc::call` with a status request. -/
  | ipcCall
  /-- Decode the JSON file; a missing file gives the defaults. -/
  | loadJson
  /-- A method of `LiveNet` or `LiveGateway`. -/
  | ctl (c : CtlCall)

abbrev CheckCall.Ret : CheckCall → Type
  | .ipcCall => Except Error Response
  | .loadJson => Except Error Config
  | .ctl c => c.Ret

abbrev CheckSig : Signature := ⟨CheckCall, CheckCall.Ret⟩

abbrev CheckCall.make (c : CheckCall) : Prog CheckSig c.Ret := call (S := CheckSig) c

/-- The interface has a carrier and an address. -/
def ifaceUp (iface : String) : Prog CheckSig Bool := do
  let carrier ← (CheckCall.ctl (.net (.carrierUp iface))).make
  if carrier then (CheckCall.ctl (.net (.ifaceHasIpv4 iface))).make else return false

def legacyIfaceUp : ExceptT Error (Prog CheckSig) Bool := do
  let cfg ← attempt (checked <$> CheckCall.loadJson.make)
  let iface ← attempt (CheckCall.ctl (.net (.resolveIface cfg.interface))).make
  ifaceUp iface

def checkLiveness (style : CheckStyle) : Prog CheckSig (Except Error Bool) := do
  match ← CheckCall.ipcCall.make with
  | .ok response => return .ok response.alive
  | .error (.ioPath _ _) | .error (.io _) =>
    match style with
    | .daemon => return .ok false
    | .legacy => legacyIfaceUp.run
  | .error e => return .error e

/-! ## What a check runs on -/

section Check
variable {cable : String → Bool} {γ : Type} {G : Env GwSig γ} {style : CheckStyle}
  {reply : Except Error Response} {json : Except Error Config}

/-- The socket answers `reply`, the configuration file holds `json`, and every call of the
two traits does what it says. -/
def checkEnv (reply : Except Error Response) (json : Except Error Config) (G : Env GwSig γ) :
    Env CheckSig ((Wired cable × Routes) × γ)
  | .ipcCall, s, r, t => r = reply ∧ t = s
  | .loadJson, s, r, t => r = json ∧ t = s
  | .ctl c, s, r, t => ctlEnv (fun c s r t => Wired.env (fun _ => False) c s.1 r t.1 ∧
      Routes.Effect c s.1.net s.2 t.2) G c s r t

/-- Admin states, addresses, dhclients, default routes and the DHCP server are the same. -/
def Unchanged (s t : (Wired cable × Routes) × γ) : Prop :=
  t.1.1.net = s.1.1.net ∧ t.1.2 = s.1.2 ∧ t.2 = s.2

/-- The socket could not be reached. -/
def Unreachable (reply : Except Error Response) : Prop :=
  (∃ path source, reply = .error (.ioPath path source)) ∨ ∃ source, reply = .error (.io source)

/-- The check looks at the interface itself, and finds it by setting candidates up. -/
def CheckSetsUp (style : CheckStyle) (reply : Except Error Response) (json : Except Error Config)
    (s : Wired cable) : Prop :=
  style = .legacy ∧ Unreachable reply ∧ ∃ cfg, checked json = .ok cfg ∧ s.SetsUp cfg.interface

variable {s₀ s : (Wired cable × Routes) × γ}

theorem wp_ipcCall {α : Type} {k : Except Error Response → Prog CheckSig α}
    {Q : α → (Wired cable × Routes) × γ → Prop} :
    wp (checkEnv reply json G) (.call .ipcCall k) Q s ↔
      wp (checkEnv reply json G) (k reply) Q s := by
  constructor
  · exact fun h => h reply s ⟨rfl, rfl⟩
  · rintro h _ t ⟨rfl, rfl⟩
    exact h

theorem wp_loadJson {α : Type} {k : Except Error Config → Prog CheckSig α}
    {Q : α → (Wired cable × Routes) × γ → Prop} :
    wp (checkEnv reply json G) (.call .loadJson k) Q s ↔
      wp (checkEnv reply json G) (k json) Q s := by
  constructor
  · exact fun h => h json s ⟨rfl, rfl⟩
  · rintro h _ t ⟨rfl, rfl⟩
    exact h

theorem wp_ctl {α : Type} {c : NetCall} {k : c.Ret → Prog CheckSig α}
    {Q : α → (Wired cable × Routes) × γ → Prop} :
    wp (checkEnv reply json G) (.call (.ctl (.net c)) k) Q s ↔
      ∀ r t l, Wired.env (fun _ => False) c s.1.1 r t → Routes.Effect c s.1.1.net s.1.2 l →
        wp (checkEnv reply json G) (k r) Q ((t, l), s.2) := by
  constructor
  · exact fun h r t l hnet hroutes => h r ((t, l), s.2) ⟨⟨hnet, hroutes⟩, rfl⟩
  · intro h r t ht
    obtain ⟨⟨t, l⟩, g⟩ := t
    obtain ⟨⟨hnet, hroutes⟩, rfl⟩ := ht
    exact h r t l hnet hroutes

section Wp
variable {P : Net → Routes → γ → Prop}

/-- The two reads at the end of a check change nothing. -/
theorem wp_ifaceUp {iface : String} :
    wp (checkEnv reply json G) (ifaceUp iface) (fun _ t => P t.1.1.net t.1.2 t.2) s ↔
      P s.1.1.net s.1.2 s.2 := by
  unfold ifaceUp
  simp only [wp_bind, wp_ite, wp_pure, wp_ctl, wp_ret]
  constructor
  · intro h
    have hread := h (s.1.1.shows iface) s.1.1 s.1.2 ⟨Or.inl rfl, rfl, fun _ hi _ => hi⟩ rfl
    by_cases hc : s.1.1.shows iface = true
    · exact hread.1 hc _ s.1.1 s.1.2 ⟨Or.inl ⟨rfl, rfl⟩, trivial, fun _ hi _ => hi⟩ rfl
    · exact hread.2 hc
  · intro h carrier t l hread hl
    have ht : P t.net l s.2 := by
      rwa [show t.net = s.1.1.net from hread.1.resolve_right fun h => h.1, show l = s.1.2 from hl]
    refine ⟨fun _ held u l' hread' hl' => ?_, fun _ => ht⟩
    have hu : u.net = t.net := (hread'.1.resolve_right fun h => h.1).2
    rwa [hu, show l' = l from hl']

theorem wp_legacyIfaceUp {cfg : Config} (hcfg : checked json = .ok cfg) :
    wp (checkEnv reply json G) legacyIfaceUp.run (fun _ t => P t.1.1.net t.1.2 t.2) s ↔
      ∀ r t, (LiveNet.resolveIface cfg.interface).run.Exec Wired.sysEnv s.1.1 r t →
        P t.net s.1.2 s.2 := by
  have hpost : ∀ {α : Type}, (fun _ t => P t.1.1.net t.1.2 t.2) =
      post (ε := Error) (fun (_ : α) (t : (Wired cable × Routes) × γ) => P t.1.1.net t.1.2 t.2)
        (fun _ t => P t.1.1.net t.1.2 t.2) := by
    intro α
    funext r t
    cases r <;> rfl
  rw [hpost]
  show wpE _ legacyIfaceUp _ _ s ↔ _
  unfold legacyIfaceUp
  simp only [wpE_bind, wpE_mk, wp_map, wp_loadJson, wp_ret, wp_ctl, wpE_lift, wp_ifaceUp, hcfg,
    post_ok, ← hpost]
  constructor
  · exact fun h r t hexec => h r t s.1.2 hexec rfl
  · rintro h r t l hexec rfl
    exact h r t hexec

/-- Without a configuration nothing is resolved. -/
theorem wp_legacyIfaceUp_error {e : Error} (hcfg : checked json = .error e)
    {Q : Except Error Bool → (Wired cable × Routes) × γ → Prop} (h : Q (.error e) s) :
    wp (checkEnv reply json G) legacyIfaceUp.run Q s := by
  refine wp_loadJson.mpr ?_
  show wp _ (ExceptT.bindCont _ (checked json)) Q s
  rw [hcfg]
  exact h

end Wp

theorem wp_checkLiveness_legacy (h : Unreachable reply)
    {Q : Except Error Bool → (Wired cable × Routes) × γ → Prop} :
    wp (checkEnv reply json G) (checkLiveness .legacy) Q s ↔
      wp (checkEnv reply json G) legacyIfaceUp.run Q s := by
  rcases h with ⟨path, source, rfl⟩ | ⟨source, rfl⟩
  · exact wp_ipcCall
  · exact wp_ipcCall

/-- A check that the daemon answers, or that does not look itself, makes no other call. -/
theorem wp_checkLiveness_asks (h : ¬ (style = .legacy ∧ Unreachable reply))
    {P : (Wired cable × Routes) × γ → Prop} (hs : P s) :
    wp (checkEnv reply json G) (checkLiveness style) (fun _ t => P t) s := by
  refine wp_ipcCall.mpr ?_
  have hstyle : Unreachable reply → wp (checkEnv reply json G)
      (match style with
        | .daemon => return .ok false
        | .legacy => legacyIfaceUp.run) (fun _ t => P t) s := by
    intro hreply
    cases style with
    | daemon => exact hs
    | legacy => exact absurd ⟨rfl, hreply⟩ h
  cases reply with
  | ok response => exact hs
  | error e =>
    cases e with
    | ioPath path source => exact hstyle (Or.inl ⟨path, source, rfl⟩)
    | io source => exact hstyle (Or.inr ⟨source, rfl⟩)
    | _ => exact hs

/-- **A check leaves everything as it was**, in every run, unless it looks for an interface itself
where no listed one shows carrier and one is down: there it can set it up.  The reply of the
daemon, the file and the style of the check are any. -/
theorem check_unchanged_iff :
    (∀ r t, (checkLiveness style).Exec (checkEnv reply json G) s r t → Unchanged s t) ↔
      ¬ CheckSetsUp style reply json s.1.1 := by
  rw [← wp_iff (Q := fun _ t => Unchanged s t)]
  constructor
  · rintro h ⟨rfl, hreply, cfg, hcfg, hsets⟩
    rw [wp_checkLiveness_legacy hreply] at h
    obtain ⟨k, t, hexec, ht⟩ := hsets.exec
    have hsame : t.net = s.1.1.net := ((wp_legacyIfaceUp (P := fun n l g =>
      n = s.1.1.net ∧ l = s.1.2 ∧ g = s.2) hcfg).mp h _ t hexec).1
    obtain ⟨-, -, -, i, hi, hdown⟩ := hsets
    have hup := congrFun (congrArg Net.up (ht.symm.trans hsame)) i
    simp [Net.setUpAll, hi, hdown] at hup
  · intro h
    have hself : Unchanged s s := ⟨rfl, rfl, rfl⟩
    by_cases hlooks : style = .legacy ∧ Unreachable reply
    · obtain ⟨rfl, hreply⟩ := hlooks
      rw [wp_checkLiveness_legacy hreply]
      cases hcfg : checked json with
      | error e => exact wp_legacyIfaceUp_error hcfg hself
      | ok cfg =>
        refine (wp_legacyIfaceUp (P := fun n l g =>
          n = s.1.1.net ∧ l = s.1.2 ∧ g = s.2) hcfg).mpr fun r t hexec => ⟨?_, rfl, rfl⟩
        refine wp_iff.mp (Wired.wp_resolveIface_quiet fun hsets => ?_) r t hexec
        exact h ⟨rfl, hreply, cfg, hcfg, hsets⟩
    · exact wp_checkLiveness_asks hlooks hself

end Check

/-! ### An isolated interface -/

/-- An apply has isolated `eth1`; nobody has a cable. -/
def isolatedPort : Wired fun _ => false where
  net := { oneEthernet [.slash24 ⟨192, 168, 0, 1⟩] with
    ethernets := ["eth0", "eth1"], up := fun i => i = "eth0" }
  shows := fun _ => false
  lit := nofun

/-- A legacy check after the daemon is gone sets `eth1` up. -/
theorem legacy_check_sets_isolated_up :
    ¬ ∀ r t, (checkLiveness .legacy).Exec (checkEnv (.error (.ioPath "/run/micronet.sock" "ENOENT"))
        (.ok {}) Dnsmasq.env) ((isolatedPort, []), true) r t →
      t.1.1.net.up "eth1" = false := by
  intro h
  have hsets : isolatedPort.SetsUp none :=
    ⟨Or.inl rfl, rfl, fun _ _ => rfl, "eth1", by decide, by decide⟩
  obtain ⟨k, t, hexec, ht⟩ := hsets.exec
  have hwp := (wp_checkLiveness_legacy (Or.inl ⟨_, _, rfl⟩)).mp (wp_iff.mpr h)
  have hdown := (wp_legacyIfaceUp (P := fun n _ _ => n.up "eth1" = false) rfl).mp hwp _ t hexec
  rw [ht] at hdown
  exact absurd hdown (by decide)

end Micronet

import Micronet.Network

/-!
# What `apply` runs on

An environment of both traits is one of `NetOps` beside one of `GatewayCtl`.
`Dnsmasq.env` is all that is assumed of the DHCP server where its process matters:
nobody else starts it, a stop that succeeds and a restart that fails leave it
stopped, and it may die at any call.  The questions asked of a log of calls are
here too, and the handlers that concrete runs are computed with.
-/
namespace Micronet
open Interaction Prog

/-- Network calls act on the first part of the state, DHCP calls on the second. -/
def ctlEnv {ν γ : Type} (N : Env NetSig ν) (G : Env GwSig γ) : Env CtlSig (ν × γ)
  | .net c, s, r, t => N c s.1 r t.1 ∧ t.2 = s.2
  | .gw c, s, r, t => G c s.2 r t.2 ∧ t.1 = s.1

section CtlEnv
variable {ν γ : Type} {N : Env NetSig ν} {G : Env GwSig γ} {s : ν} {g : γ}

@[simp] theorem ctlEnv_net {c : NetCall} {r : c.Ret} {t : ν} {g' : γ} :
    ctlEnv N G (.net c) (s, g) r (t, g') ↔ N c s r t ∧ g' = g := Iff.rfl

@[simp] theorem ctlEnv_gw {c : GwCall} {r : c.Ret} {t : ν} {g' : γ} :
    ctlEnv N G (.gw c) (s, g) r (t, g') ↔ G c g r g' ∧ t = s := Iff.rfl

@[simp high] theorem wp_net {α : Type} {c : NetCall} {k : c.Ret → Prog CtlSig α}
    {Q : α → ν × γ → Prop} {s : ν × γ} :
    wp (ctlEnv N G) (.call (.net c) k) Q s ↔
      ∀ r t, N c s.1 r t → wp (ctlEnv N G) (k r) Q (t, s.2) := by
  constructor
  · exact fun h r t hop => h r (t, s.2) ⟨hop, rfl⟩
  · intro h r t hop
    obtain ⟨t, g'⟩ := t
    obtain ⟨hN, rfl⟩ := hop
    exact h r t hN

@[simp high] theorem wp_gw {α : Type} {c : GwCall} {k : c.Ret → Prog CtlSig α}
    {Q : α → ν × γ → Prop} {s : ν × γ} :
    wp (ctlEnv N G) (.call (.gw c) k) Q s ↔
      ∀ r g', G c s.2 r g' → wp (ctlEnv N G) (k r) Q (s.1, g') := by
  constructor
  · exact fun h r g' hop => h r (s.1, g') ⟨hop, rfl⟩
  · intro h r t hop
    obtain ⟨t, g'⟩ := t
    obtain ⟨hG, rfl⟩ := hop
    exact h r g' hG

@[simp high + 1] theorem wp_logged_net {α : Type} {c : NetCall} {k : c.Ret → Prog CtlSig α}
    {Q : α → (ν × γ) × Log CtlSig (ν × γ) → Prop} {s : (ν × γ) × Log CtlSig (ν × γ)} :
    wp (ctlEnv N G).logged (.call (.net c) k) Q s ↔ ∀ r t, N c s.1.1 r t →
      wp (ctlEnv N G).logged (k r) Q ((t, s.1.2), s.2 ++ [⟨.net c, s.1, r⟩]) := by
  refine wp_logged_op.trans ?_
  constructor
  · exact fun h r t hop => h r (t, s.1.2) ⟨hop, rfl⟩
  · intro h r t hop
    obtain ⟨t, g'⟩ := t
    obtain ⟨hN, rfl⟩ := hop
    exact h r t hN

@[simp high + 1] theorem wp_logged_gw {α : Type} {c : GwCall} {k : c.Ret → Prog CtlSig α}
    {Q : α → (ν × γ) × Log CtlSig (ν × γ) → Prop} {s : (ν × γ) × Log CtlSig (ν × γ)} :
    wp (ctlEnv N G).logged (.call (.gw c) k) Q s ↔ ∀ r g', G c s.1.2 r g' →
      wp (ctlEnv N G).logged (k r) Q ((s.1.1, g'), s.2 ++ [⟨.gw c, s.1, r⟩]) := by
  refine wp_logged_op.trans ?_
  constructor
  · exact fun h r g' hop => h r (s.1.1, g') ⟨hop, rfl⟩
  · intro h r t hop
    obtain ⟨t, g'⟩ := t
    obtain ⟨hG, rfl⟩ := hop
    exact h r g' hG

/-- The two handlers beside each other. -/
def ctlHandler (HN : Handler NetSig ν) (HG : Handler GwSig γ) : Handler CtlSig (ν × γ)
  | .net c, s => ((HN c s.1).1, (HN c s.1).2, s.2)
  | .gw c, s => ((HG c s.2).1, s.1, (HG c s.2).2)

theorem ctlHandler_implements {HN : Handler NetSig ν} {HG : Handler GwSig γ}
    (hN : HN.Implements N) (hG : HG.Implements G) : (ctlHandler HN HG).Implements (ctlEnv N G) := by
  intro op s
  cases op with
  | net c => exact ⟨hN c s.1, rfl⟩
  | gw c => exact ⟨hG c s.2, rfl⟩

end CtlEnv

/-! ## The DHCP server -/

namespace Dnsmasq

/-- What a call does with the process, which runs when the state is `true`. -/
def Effect : (c : GwCall) → Bool → c.Ret → Bool → Prop
  | .dhcpRunning, s, r, t => r = s ∧ t = s
  | .dhcpStop, s, r, t => if isErr r then t = s else t = false
  | .dhcpReloadOrRestart _ _, _, r, t => isErr r = true → t = false
  | .probeForeignDhcp _ _, s, _, t => t = s

/-- The process may have died before the call. -/
def env : Env GwSig Bool := fun c s r t => ∃ u, (u = true → s = true) ∧ Effect c u r t

/-- A server that does as it is told, and a probe that answers `offer`. -/
def handler (offer : Except Error Bool) : Handler GwSig Bool
  | .dhcpRunning, s => (s, s)
  | .dhcpStop, _ => (.ok (), false)
  | .dhcpReloadOrRestart _ _, _ => (.ok (), true)
  | .probeForeignDhcp _ _, s => (offer, s)

/-- The same server, with a script of what the probes answer. -/
def scripted : Handler GwSig (Bool × List (Except Error Bool))
  | .dhcpRunning, s => (s.1, s)
  | .dhcpStop, s => (.ok (), false, s.2)
  | .dhcpReloadOrRestart _ _, s => (.ok (), true, s.2)
  | .probeForeignDhcp _ _, s => (s.2.headD (.ok false), s.1, s.2.tail)

theorem handler_implements (offer : Except Error Bool) : (handler offer).Implements env := by
  intro op s
  refine ⟨s, id, ?_⟩
  cases op with
  | dhcpRunning => exact ⟨rfl, rfl⟩
  | dhcpStop => exact rfl
  | dhcpReloadOrRestart cfg i => exact fun h => nomatch h
  | probeForeignDhcp i d => exact rfl

end Dnsmasq

/-! ## The calls of isolation -/

/-- Isolation reads, and acts on the interfaces it does not keep. -/
def CtlCall.Isolates (keep : String) : CtlCall → Prop
  | .net .listEthernet | .net (.linkIsUp _) | .net (.ifaceIpv4Cidr _) => True
  | .net (.stopDhclient i) | .net (.flushAddr i) | .net (.setDown i) => i ≠ keep
  | _ => False

theorem within_isolateOne (keep name : String) :
    (isolateOne keep name).Within (CtlCall.Isolates keep) fun _ => True := by
  unfold isolateOne
  split
  · exact trivial
  · rename_i hne
    simp [CtlCall.Isolates, hne]

theorem within_isolateIface {keep : String} {A : CtlCall → Prop} {K : PUnit → Prop}
    (hA : ∀ op, CtlCall.Isolates keep op → A op) (hK : K ⟨⟩) :
    (isolateIface keep).Within A K := by
  unfold isolateIface
  refine within_bind.mpr ⟨hA _ trivial, fun r => ?_⟩
  cases r with
  | ok names =>
    exact within_forM names hK fun name =>
      within_mono hA (fun _ h => h) (within_isolateOne keep name)
  | error e => exact hK

/-! ## Questions asked of a log -/

section Log
variable {σ : Type}

/-- The interface a resolution answered. -/
def Event.resolved : Event CtlSig σ → Option String
  | ⟨.net (.resolveIface _), _, .ok k⟩ => some k
  | _ => none

/-- The interface `apply` chose. -/
def resolvedIface (l : Log CtlSig σ) : Option String := l.findSome? Event.resolved

/-- Where isolation started. -/
def isolatedFrom (l : Log CtlSig σ) : Option σ :=
  l.findSome? fun e => match e.op with
    | .net .listEthernet => some e.pre
    | _ => none

def Event.probe : Event CtlSig σ → Option (Except Error Bool)
  | ⟨.gw (.probeForeignDhcp _ _), _, r⟩ => some r
  | _ => none

/-- The answer of the most recent probe. -/
def lastProbe (l : Log CtlSig σ) : Option (Except Error Bool) := lastOf Event.probe l

/-- The call answered an error. -/
def Event.failed (e : Event CtlSig σ) : Bool := e.op.isErr e.ret

/-- The last call failed. -/
def aborted (l : Log CtlSig σ) : Bool := l.getLast?.any Event.failed

@[simp] theorem lastProbe_snoc (l : Log CtlSig σ) (e : Event CtlSig σ) :
    lastProbe (l ++ [e]) = (Event.probe e).or (lastProbe l) := by
  simp [lastProbe]

@[simp] theorem aborted_snoc (l : Log CtlSig σ) (e : Event CtlSig σ) :
    aborted (l ++ [e]) = Event.failed e := by
  simp [aborted]

/-- A ping was answered. -/
def Event.pingAnswered : Event CtlSig σ → Bool
  | ⟨.net (.ping _), _, r⟩ => r
  | _ => false

def gatewayAnswered (l : Log CtlSig σ) : Bool := l.any Event.pingAnswered

theorem aborted_cons {e : Event CtlSig σ} (he : Event.failed e = false) (l : Log CtlSig σ) :
    aborted (e :: l) = aborted l := by
  cases l with
  | nil => simpa [aborted] using he
  | cons e' l => simp [aborted, List.getLast?_cons]

theorem lastProbe_cons {e : Event CtlSig σ} (he : Event.probe e = none) (l : Log CtlSig σ) :
    lastProbe (e :: l) = lastProbe l := by
  rw [lastProbe, lastOf_cons, he, Option.or_none, ← lastProbe]

/-- The call starts dnsmasq. -/
def Event.startsDnsmasq (e : Event CtlSig σ) : Bool :=
  match e.op with
  | .gw (.dhcpReloadOrRestart _ _) => true
  | _ => false

/-- **How an apply goes**: it fails before or in the resolution, or goes on from
the interface resolved. -/
theorem exec_applyWith {E : Env CtlSig σ} {cfg : Config} {s t : σ} {r : Except Error Status}
    {l : Log CtlSig σ} (h : (applyWith cfg).run.Exec E.logged (s, []) r (t, l)) :
    (∃ e, r = .error e ∧
      ((cfg.validate = .error e ∧ l = []) ∨
        l = [⟨.net (.resolveIface cfg.interface), s, .error e⟩])) ∨
    ∃ k u seg, cfg.Valid ∧ E (.net (.resolveIface cfg.interface)) s (.ok k) u ∧
      l = ⟨.net (.resolveIface cfg.interface), s, .ok k⟩ :: seg ∧
      (applyOn cfg k).run.Exec E.logged (u, []) r (t, seg) := by
  rw [applyWith_eq, execE_bind] at h
  rcases h with ⟨_, u, hv, h⟩ | ⟨e, hv, rfl⟩
  · obtain ⟨hvalid, rfl⟩ := exec_ret.mp hv
    rw [execE_bind] at h
    rcases h with ⟨k, ⟨v, m⟩, hres, hon⟩ | ⟨e, hres, rfl⟩
    · obtain ⟨hE, hm⟩ := exec_call.mp hres
      obtain ⟨seg, rfl, hseg⟩ := exec_logged_split hon
      obtain rfl : m = [⟨.net (.resolveIface cfg.interface), s, .ok k⟩] := hm
      exact Or.inr ⟨k, v, seg, hvalid.symm, hE, rfl, hseg []⟩
    · obtain ⟨_, hl⟩ := exec_call.mp hres
      exact Or.inl ⟨e, rfl, Or.inr hl⟩
  · obtain ⟨hvalid, hl⟩ := exec_ret.mp hv
    exact Or.inl ⟨e, rfl, Or.inl ⟨hvalid.symm, (Prod.mk.inj hl).2⟩⟩

/-- The first call on a resolved interface is isolation's. -/
theorem isolatedFrom_applyOn {E : Env CtlSig σ} {cfg : Config} {k : String} {s t : σ}
    {r : Except Error Status} {l : Log CtlSig σ}
    (h : (applyOn cfg k).run.Exec E.logged (s, []) r (t, l)) : isolatedFrom l = some s := by
  obtain ⟨_, ⟨u, m⟩, ⟨-, hm⟩, hrest⟩ := h
  obtain ⟨seg, rfl, -⟩ := exec_logged_split hrest
  obtain rfl : m = [⟨.net .listEthernet, s, _⟩] := hm
  rfl

theorem exec_applyWith_resolved {E : Env CtlSig σ} {cfg : Config} {s t : σ}
    {r : Except Error Status} {l : Log CtlSig σ} {k : String}
    (h : (applyWith cfg).run.Exec E.logged (s, []) r (t, l)) (hk : resolvedIface l = some k) :
    cfg.Valid ∧ ∃ u seg, E (.net (.resolveIface cfg.interface)) s (.ok k) u ∧
      l = ⟨.net (.resolveIface cfg.interface), s, .ok k⟩ :: seg ∧
      (applyOn cfg k).run.Exec E.logged (u, []) r (t, seg) := by
  rcases exec_applyWith h with ⟨e, _, ⟨_, rfl⟩ | rfl⟩ | ⟨k', u, seg, hvalid, hE, rfl, hon⟩
  · cases hk
  · cases hk
  · obtain rfl : k' = k := Option.some.inj hk
    exact ⟨hvalid, u, seg, hE, rfl, hon⟩

end Log
end Micronet

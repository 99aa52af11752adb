import Mathlib.Logic.Function.Basic
import Micronet.Apply
import Micronet.LiveNet

/-!
# The machine's links and addresses

A `Net` is what the calls of `NetOps` read and change: the physical Ethernets,
admin states, addresses and the dhclients.  `Net.env` says what each call does
when it does what it says, and which calls may fail instead.  Carriers and pings
are not part of the state, and every answer of theirs is allowed; interface
resolution is that of `LiveNet`, on the same state.
-/
namespace Micronet
open Interaction Prog

structure Net where
  /-- The physical Ethernets, in the order of the listing. -/
  ethernets : List String
  /-- Why the listing cannot be read, when it cannot. -/
  listError : Option Error := none
  /-- Admin-up. -/
  up : String → Bool
  /-- The IPv4 addresses with their interfaces, in the order of `ip addr show`. -/
  addrs : List (String × Ipv4Net)
  /-- A dhclient of ours runs on the interface. -/
  dhclient : String → Bool

namespace Net

def listing (s : Net) : Except Error (List String) :=
  match s.listError with
  | some e => .error e
  | none => .ok s.ethernets

def addrsOf (s : Net) (i : String) : List Ipv4Net := (s.addrs.filter (·.1 = i)).map (·.2)

def setUp (i : String) (b : Bool) (s : Net) : Net := { s with up := Function.update s.up i b }

def setDhclient (i : String) (b : Bool) (s : Net) : Net :=
  { s with dhclient := Function.update s.dhclient i b }

def flush (i : String) (s : Net) : Net := { s with addrs := s.addrs.filter (·.1 ≠ i) }

/-- An address that is there already is left as it is. -/
def addAddr (i : String) (c : Ipv4Net) (s : Net) : Net :=
  if (i, c) ∈ s.addrs then s else { s with addrs := s.addrs ++ [(i, c)] }

/-- The addresses of `i` become `l`. -/
def readdress (i : String) (l : List Ipv4Net) (s : Net) : Net :=
  { s with addrs := s.addrs.filter (·.1 ≠ i) ++ l.map (i, ·) }

/-- `ip` is an address of some interface. -/
def isLocal (s : Net) (ip : Ipv4Addr) : Bool := s.addrs.any (·.2.addr = ip)

/-! ### What each update leaves -/

section Updates
variable (s : Net) (i j : String) (b : Bool) (c : Ipv4Net) (l : List Ipv4Net)

@[simp] theorem setUp_ethernets : (s.setUp i b).ethernets = s.ethernets := rfl
@[simp] theorem setUp_listError : (s.setUp i b).listError = s.listError := rfl
@[simp] theorem setUp_addrsOf : (s.setUp i b).addrsOf j = s.addrsOf j := rfl
@[simp] theorem setUp_isLocal (ip : Ipv4Addr) : (s.setUp i b).isLocal ip = s.isLocal ip := rfl
@[simp] theorem setUp_dhclient : (s.setUp i b).dhclient = s.dhclient := rfl
@[simp] theorem setUp_up : (s.setUp i b).up j = if j = i then b else s.up j :=
  Function.update_apply ..

@[simp] theorem setDhclient_ethernets : (s.setDhclient i b).ethernets = s.ethernets := rfl
@[simp] theorem setDhclient_listError : (s.setDhclient i b).listError = s.listError := rfl
@[simp] theorem setDhclient_addrsOf : (s.setDhclient i b).addrsOf j = s.addrsOf j := rfl
@[simp] theorem setDhclient_isLocal (ip : Ipv4Addr) :
    (s.setDhclient i b).isLocal ip = s.isLocal ip := rfl
@[simp] theorem setDhclient_up : (s.setDhclient i b).up = s.up := rfl
@[simp] theorem setDhclient_dhclient :
    (s.setDhclient i b).dhclient j = if j = i then b else s.dhclient j :=
  Function.update_apply ..

@[simp] theorem flush_ethernets : (s.flush i).ethernets = s.ethernets := rfl
@[simp] theorem flush_listError : (s.flush i).listError = s.listError := rfl
@[simp] theorem flush_up : (s.flush i).up = s.up := rfl
@[simp] theorem flush_dhclient : (s.flush i).dhclient = s.dhclient := rfl

@[simp] theorem flush_addrsOf : (s.flush i).addrsOf j = if j = i then [] else s.addrsOf j := by
  unfold addrsOf flush
  rw [List.filter_filter]
  by_cases h : j = i
  · subst h
    simp
  · rw [if_neg h]
    congr 1
    refine List.filter_congr fun a _ => ?_
    by_cases ha : a.1 = j <;> simp [ha, h]

@[simp] theorem addAddr_ethernets : (s.addAddr i c).ethernets = s.ethernets := by
  unfold addAddr; split <;> rfl

@[simp] theorem addAddr_listError : (s.addAddr i c).listError = s.listError := by
  unfold addAddr; split <;> rfl

@[simp] theorem addAddr_up : (s.addAddr i c).up = s.up := by
  unfold addAddr; split <;> rfl

@[simp] theorem addAddr_dhclient : (s.addAddr i c).dhclient = s.dhclient := by
  unfold addAddr; split <;> rfl

theorem mem_addrsOf {s : Net} {i : String} {c : Ipv4Net} : c ∈ s.addrsOf i ↔ (i, c) ∈ s.addrs := by
  simp [addrsOf]

theorem addAddr_addrsOf_of_ne (h : j ≠ i) : (s.addAddr i c).addrsOf j = s.addrsOf j := by
  unfold addAddr
  split
  · rfl
  · simp [addrsOf, h.symm]

theorem addAddr_addrsOf_self (h : s.addrsOf i = []) : (s.addAddr i c).addrsOf i = [c] := by
  have hnot : (i, c) ∉ s.addrs := by
    rw [← mem_addrsOf, h]
    exact List.not_mem_nil
  unfold addAddr
  rw [if_neg hnot]
  unfold addrsOf at *
  simp only [List.filter_append, List.map_append, h]
  simp

@[simp] theorem mem_addAddr {c' : Ipv4Net} :
    c' ∈ (s.addAddr i c).addrsOf j ↔ c' ∈ s.addrsOf j ∨ j = i ∧ c' = c := by
  rw [mem_addrsOf, mem_addrsOf]
  unfold addAddr
  split
  · rename_i h
    constructor
    · exact Or.inl
    · intro h'
      rcases h' with h' | ⟨rfl, rfl⟩
      · exact h'
      · exact h
  · simp

@[simp] theorem addAddr_isLocal (ip : Ipv4Addr) :
    (s.addAddr i c).isLocal ip = (s.isLocal ip || decide (c.addr = ip)) := by
  unfold addAddr isLocal
  split
  · rename_i h
    by_cases hc : c.addr = ip
    · simp only [hc, decide_true, Bool.or_true, List.any_eq_true, decide_eq_true_eq]
      exact ⟨(i, c), h, hc⟩
    · simp [hc]
  · simp

@[simp] theorem readdress_ethernets : (s.readdress i l).ethernets = s.ethernets := rfl
@[simp] theorem readdress_listError : (s.readdress i l).listError = s.listError := rfl
@[simp] theorem readdress_up : (s.readdress i l).up = s.up := rfl
@[simp] theorem readdress_dhclient : (s.readdress i l).dhclient = s.dhclient := rfl

/-- A flush adds no address. -/
theorem flush_isLocal {ip : Ipv4Addr} (h : s.isLocal ip = false) :
    (s.flush i).isLocal ip = false := by
  unfold isLocal flush at *
  rw [List.any_eq_false] at h ⊢
  exact fun a ha => h a (List.mem_filter.mp ha).1

@[simp] theorem readdress_addrsOf :
    (s.readdress i l).addrsOf j = if j = i then l else s.addrsOf j := by
  unfold readdress
  rw [addrsOf, List.filter_append, List.map_append]
  have hflush := flush_addrsOf s i j
  unfold flush at hflush
  rw [addrsOf] at hflush
  rw [hflush]
  by_cases h : j = i
  · subst h
    simp [List.filter_map, Function.comp_def]
  · have hij : ¬ i = j := fun e => h e.symm
    simp [h, hij, List.filter_map, Function.comp_def]

/-- No interface is read as unaddressed that is not. -/
theorem firstInetCidr_eq_none {l : List Ipv4Net} : firstInetCidr l = none ↔ l = [] := by
  cases l with
  | nil => simp [firstInetCidr]
  | cons n l => simp [firstInetCidr]

theorem firstInetCidr_mem {l : List Ipv4Net} {n : Ipv4Net} (h : firstInetCidr l = some n) :
    n ∈ l := by
  rcases Option.or_eq_some_iff.mp h with h | ⟨_, h⟩
  · exact List.mem_of_find?_eq_some h
  · exact List.mem_of_head? h

theorem firstInetCidr_singleton (n : Ipv4Net) : firstInetCidr [n] = some n := by
  cases h : firstInetCidr [n] with
  | none => exact absurd (firstInetCidr_eq_none.mp h) (by simp)
  | some m => rw [List.mem_singleton.mp (firstInetCidr_mem h)]

end Updates

/-! ## What the calls do -/

/-- Resolution's calls: nothing but admin states change. -/
def sysEnv : Env SysSig Net
  | .listPhysicalEthernet, s, r, t => r = s.listing ∧ t = s
  | .isPhysicalEthernet name, s, r, t => r = decide (name ∈ s.ethernets) ∧ t = s
  | .carrierUpSys _, s, _, t => t = s
  | .linkIsUpSys name, s, r, t => r = s.up name ∧ t = s
  | .ipLinkSetUp name, s, r, t => r = .ok () ∧ t = s.setUp name true ∨ (∃ e, r = .error e) ∧ t = s
  | .now, s, _, t => t = s
  | .sleep _, s, _, t => t = s

/-- Resolution changes admin states only. -/
theorem exec_sysEnv {α : Type} {p : Prog SysSig α} {s t : Net} {a : α}
    (h : p.Exec sysEnv s a t) : ∃ up, t = { s with up := up } := by
  refine h.keeps (I := fun u => ∃ up, u = { s with up := up }) ?_ ⟨s.up, rfl⟩
  intro op u r v hu hop
  obtain ⟨up, rfl⟩ := hu
  cases op with
  | listPhysicalEthernet => exact ⟨up, hop.2⟩
  | isPhysicalEthernet name => exact ⟨up, hop.2⟩
  | carrierUpSys name => exact ⟨up, hop⟩
  | linkIsUpSys name => exact ⟨up, hop.2⟩
  | ipLinkSetUp name =>
    rcases hop with ⟨_, rfl⟩ | ⟨_, rfl⟩
    · exact ⟨Function.update up name true, rfl⟩
    · exact ⟨up, rfl⟩
  | now => exact ⟨up, hop⟩
  | sleep d => exact ⟨up, hop⟩

/-- What a call that succeeds does. -/
def Effect : (c : NetCall) → Net → c.Ret → Net → Prop
  | .listEthernet, s, r, t => r = s.listing ∧ t = s
  | .isPhysicalEthernet name, s, r, t => r = decide (name ∈ s.ethernets) ∧ t = s
  | .resolveIface c, s, r, t => (LiveNet.resolveIface c).run.Exec sysEnv s r t
  | .resolveIfacePassive c, s, r, t => (LiveNet.resolveIfacePassive c).run.Exec sysEnv s r t
  | .bringUp i, s, r, t => r = .ok () ∧ t = s.setUp i true
  | .flushAddr i, s, r, t => r = .ok () ∧ t = s.flush i
  | .addAddr i c, s, r, t => r = .ok () ∧ t = s.addAddr i c
  | .ifaceHasIpv4 i, s, r, t => r = (firstInetCidr (s.addrsOf i)).isSome ∧ t = s
  | .ifaceHasAddr i ip, s, r, t => r = (firstInetCidr (s.addrsOf i)).any (·.addr = ip) ∧ t = s
  | .ifaceIpv4Cidr i, s, r, t => r = firstInetCidr (s.addrsOf i) ∧ t = s
  | .carrierUp _, s, _, t => t = s
  | .linkIsUp i, s, r, t => r = s.up i ∧ t = s
  | .setDown i, s, r, t => r = .ok () ∧ t = s.setUp i false
  | .ipv4AddrIsLocal ip, s, r, t => r = s.isLocal ip ∧ t = s
  | .ping _, s, _, t => t = s
  | .stopDhclient i, s, r, t => r = .ok () ∧ t = s.setDhclient i false
  | .startDhclient i, s, r, t => r = .ok () ∧ t = s.setDhclient i true
  | .dhclientRunning i, s, r, t => r = s.dhclient i ∧ t = s
  -- a running dhclient may give its interface any addresses meanwhile
  | .waitIpv4 i _, s, r, t =>
    ∃ l, (s.dhclient i = false → l = s.addrsOf i) ∧ r = !l.isEmpty ∧ t = s.readdress i l
  | .replaceDefaultVia _ _, s, r, t => r = .ok () ∧ t = s
  | .delDefault, s, r, t => r = .ok () ∧ t = s

end Net

/-- The calls that can change a `Net`; the others read it, or act outside it. -/
def NetCall.acts : NetCall → Bool
  | .resolveIface _ | .resolveIfacePassive _ | .bringUp _ | .flushAddr _ | .addAddr _ _
  | .setDown _ | .stopDhclient _ | .startDhclient _ | .waitIpv4 _ _ => true
  | _ => false

namespace Net

theorem eq_of_not_acts {c : NetCall} {s t : Net} {r : c.Ret} (hc : c.acts = false)
    (h : Effect c s r t) : t = s := by
  cases c <;> simp [NetCall.acts] at hc
  case carrierUp => exact h
  case ping => exact h
  all_goals exact h.2

/-- Resolution changes admin states only. -/
theorem effect_resolve {configured : Option String} {s t : Net} {r : Except Error String}
    (h : Effect (.resolveIface configured) s r t ∨ Effect (.resolveIfacePassive configured) s r t) :
    ∃ up, t = { s with up := up } := by
  rcases h with h | h
  · exact exec_sysEnv h
  · exact exec_sysEnv h

/-- No call changes the listing. -/
theorem effect_listing {c : NetCall} {s t : Net} {r : c.Ret} (h : Effect c s r t) :
    t.ethernets = s.ethernets ∧ t.listError = s.listError := by
  cases hact : c.acts with
  | false => simp [eq_of_not_acts hact h]
  | true =>
    cases c <;> simp [NetCall.acts] at hact
    case resolveIface configured =>
      obtain ⟨up, rfl⟩ := effect_resolve (Or.inl h)
      exact ⟨rfl, rfl⟩
    case resolveIfacePassive configured =>
      obtain ⟨up, rfl⟩ := effect_resolve (Or.inr h)
      exact ⟨rfl, rfl⟩
    case waitIpv4 j d => obtain ⟨l, _, _, rfl⟩ := h; simp
    all_goals obtain ⟨_, rfl⟩ := h; simp

/-- Only `startDhclient` starts one. -/
theorem effect_idle {c : NetCall} {i : String} {s t : Net} {r : c.Ret}
    (hc : c ≠ .startDhclient i) (hs : s.dhclient i = false) (h : Effect c s r t) :
    t.dhclient i = false := by
  cases hact : c.acts with
  | false => rwa [eq_of_not_acts hact h]
  | true =>
    cases c <;> simp [NetCall.acts] at hact
    case resolveIface configured =>
      obtain ⟨up, rfl⟩ := effect_resolve (Or.inl h)
      exact hs
    case resolveIfacePassive configured =>
      obtain ⟨up, rfl⟩ := effect_resolve (Or.inr h)
      exact hs
    case bringUp j => obtain ⟨_, rfl⟩ := h; simpa using hs
    case flushAddr j => obtain ⟨_, rfl⟩ := h; simpa using hs
    case addAddr j c => obtain ⟨_, rfl⟩ := h; simpa using hs
    case setDown j => obtain ⟨_, rfl⟩ := h; simpa using hs
    case stopDhclient j => obtain ⟨_, rfl⟩ := h; simp [hs]
    case startDhclient j =>
      obtain ⟨_, rfl⟩ := h
      have hij : i ≠ j := fun e => hc (e ▸ rfl)
      simpa [hij] using hs
    case waitIpv4 j d => obtain ⟨l, _, _, rfl⟩ := h; simpa using hs

/-- Every call does what it says; those of `F` may fail instead, changing nothing. -/
def env (F : NetCall → Prop) : Env NetSig Net :=
  fun c s r t => Effect c s r t ∨ F c ∧ c.isErr r ∧ t = s

end Net

/-- The calls whose success may be reported where nothing was done: a flush and the removal of a
default route, whose errors are dropped, and an address that is found under another prefix. -/
def NetCall.unchecked : NetCall → Bool
  | .flushAddr _ | .addAddr _ _ | .delDefault => true
  | _ => false

namespace Net

/-- The same network, where moreover the unchecked calls of `U` may do nothing and report
success. -/
def slack (F : NetCall → Prop) (U : NetCall → Net → Prop) : Env NetSig Net :=
  fun c s r t => env F c s r t ∨ c.unchecked ∧ U c s ∧ c.isErr r = false ∧ t = s

theorem slack_of_env {F : NetCall → Prop} {U : NetCall → Net → Prop} {c : NetCall} {s t : Net}
    {r : c.Ret} (h : env F c s r t) : slack F U c s r t := Or.inl h

/-- A call that is checked does what it says, or fails. -/
theorem env_of_slack {F : NetCall → Prop} {U : NetCall → Net → Prop} {c : NetCall} {s t : Net}
    {r : c.Ret} (hc : c.unchecked = false) (h : slack F U c s r t) : env F c s r t :=
  h.resolve_right fun h => Bool.false_ne_true (hc.symm.trans h.1)

/-- Every call does what it says, or changes nothing. -/
theorem effect_of_slack {F : NetCall → Prop} {U : NetCall → Net → Prop} {c : NetCall} {s t : Net}
    {r : c.Ret} (h : slack F U c s r t) : Effect c s r t ∨ t = s := by
  rcases h with (h | ⟨-, -, h⟩) | ⟨-, -, -, h⟩
  · exact Or.inl h
  · exact Or.inr h
  · exact Or.inr h

end Net

/-! ## Computing with a network -/

/-- What a network does not say itself: the carriers, who answers a ping, and the
addresses dhclient gets. -/
structure Lan where
  /-- Whether an interface shows carrier. -/
  carrier : Net → String → Bool
  /-- Whether a host answers a ping. -/
  pings : Net → Ipv4Addr → Bool
  /-- What dhclient sets on an interface. -/
  lease : String → List Ipv4Net

namespace Lan
open Net

/-- No carrier, no host that answers, no lease. -/
def silent : Lan :=
  { carrier := fun _ _ => false, pings := fun _ _ => false, lease := fun _ => [] }

/-- The same with a carrier everywhere. -/
def linked : Lan := { silent with carrier := fun _ _ => true }

def sys (lan : Lan) : Handler SysSig Net
  | .listPhysicalEthernet, s => (s.listing, s)
  | .isPhysicalEthernet name, s => (decide (name ∈ s.ethernets), s)
  | .carrierUpSys name, s => (lan.carrier s name, s)
  | .linkIsUpSys name, s => (s.up name, s)
  | .ipLinkSetUp name, s => (.ok (), s.setUp name true)
  | .now, s => (0, s)
  | .sleep _, s => ((), s)

theorem sys_implements (lan : Lan) : lan.sys.Implements sysEnv := by
  intro op s
  cases op with
  | ipLinkSetUp name => exact Or.inl ⟨rfl, rfl⟩
  | carrierUpSys name => exact rfl
  | now => exact rfl
  | sleep d => exact rfl
  | _ => exact ⟨rfl, rfl⟩

/-- Every call succeeds. -/
def net (lan : Lan) : Handler NetSig Net
  | .listEthernet, s => (s.listing, s)
  | .isPhysicalEthernet name, s => (decide (name ∈ s.ethernets), s)
  | .resolveIface c, s => (LiveNet.resolveIface c).run.run lan.sys s
  | .resolveIfacePassive c, s => (LiveNet.resolveIfacePassive c).run.run lan.sys s
  | .bringUp i, s => (.ok (), s.setUp i true)
  | .flushAddr i, s => (.ok (), s.flush i)
  | .addAddr i c, s => (.ok (), s.addAddr i c)
  | .ifaceHasIpv4 i, s => ((firstInetCidr (s.addrsOf i)).isSome, s)
  | .ifaceHasAddr i ip, s => ((firstInetCidr (s.addrsOf i)).any (·.addr = ip), s)
  | .ifaceIpv4Cidr i, s => (firstInetCidr (s.addrsOf i), s)
  | .carrierUp i, s => (lan.carrier s i, s)
  | .linkIsUp i, s => (s.up i, s)
  | .setDown i, s => (.ok (), s.setUp i false)
  | .ipv4AddrIsLocal ip, s => (s.isLocal ip, s)
  | .ping ip, s => (lan.pings s ip, s)
  | .stopDhclient i, s => (.ok (), s.setDhclient i false)
  | .startDhclient i, s => (.ok (), s.setDhclient i true)
  | .dhclientRunning i, s => (s.dhclient i, s)
  | .waitIpv4 i _, s =>
    let l := if s.dhclient i then lan.lease i else s.addrsOf i
    (!l.isEmpty, s.readdress i l)
  | .replaceDefaultVia _ _, s => (.ok (), s)
  | .delDefault, s => (.ok (), s)

theorem net_implements (lan : Lan) (F : NetCall → Prop) : lan.net.Implements (Net.env F) := by
  intro op s
  refine Or.inl ?_
  cases op with
  | resolveIface c => exact lan.sys_implements.exec _ _
  | resolveIfacePassive c => exact lan.sys_implements.exec _ _
  | carrierUp i => exact rfl
  | ping ip => exact rfl
  | waitIpv4 i d =>
    refine ⟨_, fun h => ?_, rfl, rfl⟩
    simp [h]
  | _ => exact ⟨rfl, rfl⟩

end Lan
/-- One Ethernet, up, with the given addresses. -/
def oneEthernet (l : List Ipv4Net) : Net :=
  { ethernets := ["eth0"], up := fun _ => true, addrs := l.map ("eth0", ·),
    dhclient := fun _ => false }

end Micronet

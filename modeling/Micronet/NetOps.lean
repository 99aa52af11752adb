import Micronet.Weakest
import Micronet.Config

/-!
# The traits `NetOps` and `GatewayCtl`

`apply` is generic over an implementation of two traits: the operations on the
links and addresses of the machine, and the DHCP server with its probe.  Here
each trait is a signature of calls, a method is the program that makes one call,
and an implementation is an environment.
-/
namespace Micronet
open Interaction

/-- A `Duration`, in nanoseconds. -/
abbrev Duration : Type := Nat

/-- `Duration::from_secs`. -/
def Duration.fromSecs (secs : UInt64) : Duration := secs.toNat * 10 ^ 9

theorem Duration.fromSecs_pos {secs : UInt64} (h : secs ≠ 0) : 0 < Duration.fromSecs secs := by
  refine Nat.mul_pos (Nat.pos_of_ne_zero fun h0 => h ?_) (by decide)
  exact UInt64.toNat_inj.mp h0

/-- The methods of `NetOps`. -/
inductive NetCall
  | listEthernet
  | isPhysicalEthernet (name : String)
  | resolveIface (configured : Option String)
  | resolveIfacePassive (configured : Option String)
  | bringUp (iface : String)
  | flushAddr (iface : String)
  | addAddr (iface : String) (cidr : Ipv4Net)
  | ifaceHasIpv4 (iface : String)
  | ifaceHasAddr (iface : String) (ip : Ipv4Addr)
  | ifaceIpv4Cidr (iface : String)
  | carrierUp (iface : String)
  | linkIsUp (iface : String)
  | setDown (iface : String)
  | ipv4AddrIsLocal (ip : Ipv4Addr)
  | ping (host : Ipv4Addr)
  | stopDhclient (iface : String)
  | startDhclient (iface : String)
  | dhclientRunning (iface : String)
  | waitIpv4 (iface : String) (timeout : Duration)
  | replaceDefaultVia (gw : Ipv4Addr) (iface : String)
  | delDefault
deriving DecidableEq

abbrev NetCall.Ret : NetCall → Type
  | .listEthernet => Except Error (List String)
  | .resolveIface _ | .resolveIfacePassive _ => Except Error String
  | .bringUp _ | .flushAddr _ | .addAddr _ _ | .setDown _ | .stopDhclient _ | .startDhclient _
  | .replaceDefaultVia _ _ | .delDefault => Except Error Unit
  | .ifaceIpv4Cidr _ => Option Ipv4Net
  | .isPhysicalEthernet _ | .ifaceHasIpv4 _ | .ifaceHasAddr _ _ | .carrierUp _ | .linkIsUp _
  | .ipv4AddrIsLocal _ | .ping _ | .dhclientRunning _ | .waitIpv4 _ _ => Bool

/-- The methods of `GatewayCtl`. -/
inductive GwCall
  | dhcpRunning
  | dhcpStop
  | dhcpReloadOrRestart (cfg : Config) (iface : String)
  | probeForeignDhcp (iface : String) (timeout : Duration)
deriving DecidableEq

abbrev GwCall.Ret : GwCall → Type
  | .dhcpRunning => Bool
  | .dhcpStop | .dhcpReloadOrRestart _ _ => Except Error Unit
  | .probeForeignDhcp _ _ => Except Error Bool

/-- A method of either trait. -/
inductive CtlCall
  | net (c : NetCall)
  | gw (c : GwCall)
deriving DecidableEq

abbrev CtlCall.Ret : CtlCall → Type
  | .net c => c.Ret
  | .gw c => c.Ret

abbrev NetSig : Signature := ⟨NetCall, NetCall.Ret⟩

abbrev GwSig : Signature := ⟨GwCall, GwCall.Ret⟩

abbrev CtlSig : Signature := ⟨CtlCall, CtlCall.Ret⟩

/-! ### Failed calls -/

def isErr {α : Type} : Except Error α → Bool
  | .ok _ => false
  | .error _ => true

@[simp] theorem isErr_ok {α : Type} (a : α) : isErr (.ok a) = false := rfl

@[simp] theorem isErr_error {α : Type} (e : Error) : isErr (.error e : Except Error α) = true :=
  rfl

theorem isErr_iff {α : Type} {r : Except Error α} : isErr r = true ↔ ∃ e, r = .error e := by
  cases r <;> simp

/-- The answer is an error; a call without an error type never has one. -/
def NetCall.isErr : (c : NetCall) → c.Ret → Bool
  | .listEthernet, r => Micronet.isErr r
  | .resolveIface _, r => Micronet.isErr r
  | .resolveIfacePassive _, r => Micronet.isErr r
  | .bringUp _, r => Micronet.isErr r
  | .flushAddr _, r => Micronet.isErr r
  | .addAddr _ _, r => Micronet.isErr r
  | .setDown _, r => Micronet.isErr r
  | .stopDhclient _, r => Micronet.isErr r
  | .startDhclient _, r => Micronet.isErr r
  | .replaceDefaultVia _ _, r => Micronet.isErr r
  | .delDefault, r => Micronet.isErr r
  | _, _ => false

def GwCall.isErr : (c : GwCall) → c.Ret → Bool
  | .dhcpRunning, _ => false
  | .dhcpStop, r => Micronet.isErr r
  | .dhcpReloadOrRestart _ _, r => Micronet.isErr r
  | .probeForeignDhcp _ _, r => Micronet.isErr r

def CtlCall.isErr : (c : CtlCall) → c.Ret → Bool
  | .net c, r => c.isErr r
  | .gw c, r => c.isErr r

/-- Programs that use both traits and can fail. -/
abbrev Act (α : Type) : Type := ExceptT Error (Prog CtlSig) α

/-- The `?` operator. -/
abbrev attempt {S : Signature} {α : Type} (p : Prog S (Except Error α)) :
    ExceptT Error (Prog S) α := ExceptT.mk p

namespace NetOps

abbrev method (c : NetCall) : Prog CtlSig c.Ret := call (S := CtlSig) (.net c)

abbrev listEthernet := method .listEthernet
abbrev resolveIface (configured : Option String) := method (.resolveIface configured)
abbrev resolveIfacePassive (configured : Option String) :=
  method (.resolveIfacePassive configured)
abbrev bringUp (iface : String) := method (.bringUp iface)
abbrev flushAddr (iface : String) := method (.flushAddr iface)
abbrev addAddr (iface : String) (cidr : Ipv4Net) := method (.addAddr iface cidr)
abbrev ifaceHasIpv4 (iface : String) := method (.ifaceHasIpv4 iface)
abbrev ifaceIpv4Cidr (iface : String) := method (.ifaceIpv4Cidr iface)
abbrev carrierUp (iface : String) := method (.carrierUp iface)
abbrev linkIsUp (iface : String) := method (.linkIsUp iface)
abbrev setDown (iface : String) := method (.setDown iface)
abbrev ipv4AddrIsLocal (ip : Ipv4Addr) := method (.ipv4AddrIsLocal ip)
abbrev ping (host : Ipv4Addr) := method (.ping host)
abbrev stopDhclient (iface : String) := method (.stopDhclient iface)
abbrev startDhclient (iface : String) := method (.startDhclient iface)
abbrev dhclientRunning (iface : String) := method (.dhclientRunning iface)
abbrev waitIpv4 (iface : String) (timeout : Duration) := method (.waitIpv4 iface timeout)
abbrev replaceDefaultVia (gw : Ipv4Addr) (iface : String) :=
  method (.replaceDefaultVia gw iface)
abbrev delDefault := method .delDefault

end NetOps

namespace GatewayCtl

abbrev method (c : GwCall) : Prog CtlSig c.Ret := call (S := CtlSig) (.gw c)

abbrev dhcpRunning := method .dhcpRunning
abbrev dhcpStop := method .dhcpStop
abbrev dhcpReloadOrRestart (cfg : Config) (iface : String) :=
  method (.dhcpReloadOrRestart cfg iface)
abbrev probeForeignDhcp (iface : String) (timeout : Duration) :=
  method (.probeForeignDhcp iface timeout)

end GatewayCtl
end Micronet

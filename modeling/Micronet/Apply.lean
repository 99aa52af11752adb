import Micronet.NetOps

/-!
# Mode selection and apply

One `applyWith cfg` resolves the interface, isolates it, probes for a foreign DHCP
server once and applies one of three modes.  `teardownWith` undoes what a running
daemon has set up.
-/
namespace Micronet
open Interaction

/-- Operating mode. -/
inductive Mode
  | client
  | gateway
  | static
deriving DecidableEq, Repr

/-- The snapshot that apply returns and the daemon keeps. -/
structure Status where
  mode : Mode
  iface : String
  /-- Real IPv4 prefix, or `none` if unassigned. -/
  cidr : Option Ipv4Net
  foreignDhcp : Bool
  gatewayReachable : Bool
  dnsmasqRunning : Bool
deriving DecidableEq, Repr

def Status.empty : Status :=
  { mode := .gateway, iface := "", cidr := none, foreignDhcp := false, gatewayReachable := false,
    dnsmasqRunning := false }

/-- Decide the mode from probe results. -/
def Mode.decide (foreignDhcp gatewayReachable : Bool) : Mode :=
  if foreignDhcp then .client
  else if gatewayReachable then .static
  else .gateway

/-- Wait for dhclient to assign an address. -/
def dhcpClientWait : Duration := .fromSecs 5

/-- One interface of the isolation loop: already down without an address is left
alone, and errors are only logged. -/
def isolateOne (keep name : String) : Prog CtlSig PUnit := do
  if name = keep then
    return ⟨⟩
  else
    let up ← NetOps.linkIsUp name
    -- `&&` does not read the address of an interface that is up
    let skip ← (if up then pure false else do return (← NetOps.ifaceIpv4Cidr name).isNone)
    if skip then
      return ⟨⟩
    else
      let _ ← NetOps.stopDhclient name
      let _ ← NetOps.flushAddr name
      let _ ← NetOps.setDown name
      return ⟨⟩

/-- Admin-down every physical Ethernet except `keep` (best-effort). -/
def isolateIface (keep : String) : Prog CtlSig PUnit := do
  match ← NetOps.listEthernet with
  | .ok names => names.forM (isolateOne keep)
  | .error _ => return ⟨⟩

def flushOne (name : String) : Prog CtlSig PUnit := do
  let _ ← NetOps.stopDhclient name
  let _ ← NetOps.flushAddr name
  return ⟨⟩

def flushAllEthernet : Prog CtlSig PUnit := do
  match ← NetOps.listEthernet with
  | .ok names => names.forM flushOne
  | .error _ => return ⟨⟩

def applyClient (_cfg : Config) (iface : String) : Act Status := do
  attempt GatewayCtl.dhcpStop
  attempt (NetOps.flushAddr iface)
  attempt (NetOps.startDhclient iface)
  let _ ← NetOps.waitIpv4 iface dhcpClientWait
  let cidr ← NetOps.ifaceIpv4Cidr iface
  let dnsmasqRunning ← GatewayCtl.dhcpRunning
  return { mode := .client, iface, cidr, foreignDhcp := true, gatewayReachable := false,
           dnsmasqRunning }

def applyStatic (cfg : Config) (iface : String) (staticIp : Ipv4Addr) : Act Status := do
  attempt GatewayCtl.dhcpStop
  attempt (NetOps.replaceDefaultVia cfg.gateway.ip iface)
  let dnsmasqRunning ← GatewayCtl.dhcpRunning
  return { mode := .static, iface, cidr := some (.slash24 staticIp), foreignDhcp := false,
           gatewayReachable := true, dnsmasqRunning }

def applyGateway (cfg : Config) (iface : String) : Act Status := do
  let want := cfg.gatewayCidr
  let have_ ← NetOps.ifaceIpv4Cidr iface
  (if have_ ≠ some want then do
    attempt (NetOps.flushAddr iface)
    attempt (NetOps.addAddr iface want)
  else pure ())
  attempt NetOps.delDefault
  attempt (GatewayCtl.dhcpReloadOrRestart cfg iface)
  let dnsmasqRunning ← GatewayCtl.dhcpRunning
  return { mode := .gateway, iface, cidr := some want, foreignDhcp := false,
           gatewayReachable := false, dnsmasqRunning }

/-- The mode's own apply, once the probe and the ping have decided it. -/
def applyMode (cfg : Config) (iface : String) (staticIp : Ipv4Addr) : Mode → Act Status
  | .client => applyClient cfg iface
  | .static => applyStatic cfg iface staticIp
  | .gateway => applyGateway cfg iface

/-- Apply a configuration: resolve, isolate, one DHCPDISCOVER, decide. -/
def applyWith (cfg : Config) : Act Status := do
  attempt (pure cfg.validate)
  let iface ← attempt (NetOps.resolveIface cfg.interface)
  isolateIface iface
  attempt (NetOps.bringUp iface)
  attempt (NetOps.stopDhclient iface)
  let running ← GatewayCtl.dhcpRunning
  -- our own dnsmasq must not answer the probe
  (if running then attempt GatewayCtl.dhcpStop else pure ())
  let foreignDhcp ←
    attempt (GatewayCtl.probeForeignDhcp iface (.fromSecs cfg.probeTimeoutSecs))
  if foreignDhcp then
    applyClient cfg iface
  else
    let staticCidr := cfg.staticCidr
    let staticIp := cfg.staticAddr
    let hasIpv4 ← NetOps.ifaceHasIpv4 iface
    (if hasIpv4 then pure () else attempt (NetOps.addAddr iface staticCidr))
    let pingTarget := cfg.gateway.ip
    let isLocal ← NetOps.ipv4AddrIsLocal pingTarget
    let gatewayReachable ← (if isLocal then pure false else NetOps.ping pingTarget)
    applyMode cfg iface staticIp (Mode.decide false gatewayReachable)

/-! ### The phases of apply -/

/-- The probe, with nothing of ours answering it. -/
def probeOn (cfg : Config) (iface : String) : Act Bool := do
  attempt (NetOps.stopDhclient iface)
  let running ← GatewayCtl.dhcpRunning
  (if running then attempt GatewayCtl.dhcpStop else pure ())
  attempt (GatewayCtl.probeForeignDhcp iface (.fromSecs cfg.probeTimeoutSecs))

/-- An interface without an address gets the static one. -/
def assignStatic (cfg : Config) (iface : String) : Act PUnit := do
  let hasIpv4 ← NetOps.ifaceHasIpv4 iface
  if hasIpv4 then pure () else attempt (NetOps.addAddr iface cfg.staticCidr)

/-- Ping the gateway address, unless it is one of ours. -/
def askGateway (cfg : Config) : Act Bool := do
  let isLocal ← NetOps.ipv4AddrIsLocal cfg.gateway.ip
  if isLocal then pure false else NetOps.ping cfg.gateway.ip

/-- No offer was seen: the ping decides between static and gateway. -/
def applyLocal (cfg : Config) (iface : String) : Act Status := do
  assignStatic cfg iface
  let gatewayReachable ← askGateway cfg
  applyMode cfg iface cfg.staticAddr (Mode.decide false gatewayReachable)

/-- The modes, after the probe. -/
def applyOffer (cfg : Config) (iface : String) (foreignDhcp : Bool) : Act Status :=
  if foreignDhcp then applyClient cfg iface else applyLocal cfg iface

/-- Everything on the resolved interface up to the answer of the probe. -/
def seekOffer (cfg : Config) (iface : String) : Act Bool := do
  isolateIface iface
  attempt (NetOps.bringUp iface)
  probeOn cfg iface

/-- What follows the resolution of the interface. -/
def applyOn (cfg : Config) (iface : String) : Act Status := do
  let foreignDhcp ← seekOffer cfg iface
  applyOffer cfg iface foreignDhcp

theorem applyWith_eq (cfg : Config) : applyWith cfg = (do
    attempt (pure cfg.validate)
    let iface ← attempt (NetOps.resolveIface cfg.interface)
    applyOn cfg iface) := by
  simp only [applyWith, applyOn, seekOffer, probeOn, applyOffer, applyLocal,
    assignStatic, askGateway, bind_assoc]

/-- Stop managed dnsmasq and dhclient and flush every physical Ethernet. -/
def teardownWith (cfg : Config) : Act Status := do
  attempt (pure cfg.validate)
  let iface ← attempt (NetOps.resolveIfacePassive cfg.interface)
  attempt GatewayCtl.dhcpStop
  flushAllEthernet
  attempt NetOps.delDefault
  let dnsmasqRunning ← GatewayCtl.dhcpRunning
  return { mode := .gateway, iface, cidr := none, foreignDhcp := false, gatewayReachable := false,
           dnsmasqRunning }

/-- What follows the resolution of an interface in teardown. -/
def teardownOn (iface : String) : Act Status := do
  attempt GatewayCtl.dhcpStop
  flushAllEthernet
  attempt NetOps.delDefault
  let dnsmasqRunning ← GatewayCtl.dhcpRunning
  return { mode := .gateway, iface, cidr := none, foreignDhcp := false, gatewayReachable := false,
           dnsmasqRunning }

theorem teardownWith_eq (cfg : Config) : teardownWith cfg = (do
    attempt (pure cfg.validate)
    let iface ← attempt (NetOps.resolveIfacePassive cfg.interface)
    teardownOn iface) := rfl

end Micronet

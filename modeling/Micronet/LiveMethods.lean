import Micronet.Listing
import Micronet.Processes
import Micronet.Sysfs

/-!
# The methods of `LiveNet`

`LiveNet` answers the calls of `NetOps` with the files of sysfs, with commands and with the
pidfiles of dhclient.  Each method is the program that the source writes; the arguments of
the commands are its own.
-/
namespace Micronet
open Interaction Prog RustText

/-- `IP_BIN`. -/
def ipBin : String := "/sbin/ip"

def dhclientBin : String := "/sbin/dhclient"

def pingBin : String := "/bin/ping"

def ethtoolBin : String := "/usr/sbin/ethtool"

def pingCount : String := "1"

def pingTimeoutSec : String := "2"

/-- `run` and `etc` below the data root. -/
structure DataDir where
  run : String
  etc : String

def DataDir.dhclientPidfile (D : DataDir) (iface : String) : String :=
  D.run ++ "/dhclient." ++ iface ++ ".pid"

def DataDir.dhclientLeasefile (D : DataDir) (iface : String) : String :=
  D.etc ++ "/dhclient." ++ iface ++ ".leases"

/-- What `LiveNet` asks of the machine. -/
inductive HostCall
  /-- `fs::read_dir` of `/sys/class/net`: the names of its entries. -/
  | readDir
  /-- What is at `/sys/class/net/<name>`. -/
  | readSys (name : String)
  /-- `run_cmd`: the command succeeds or fails. -/
  | run (bin : String) (args : List String)
  /-- What a command writes, if it can be run. -/
  | output (bin : String) (args : List String)
  | isFile (path : String)
  | createDirAll (path : String)
  /-- What `pidfile` asks for, of the pidfile at `path`. -/
  | pid (path : String) (c : PidCall)
  | now
  | sleep (d : Duration)
deriving DecidableEq

abbrev HostCall.Ret : HostCall → Type
  | .readDir => Except Error (List String)
  | .readSys _ => Option SysDir
  | .run _ _ | .createDirAll _ => Except Error Unit
  | .output _ _ => Option (List Char)
  | .isFile _ => Bool
  | .pid _ c => c.Ret
  | .now => Nat
  | .sleep _ => Unit

abbrev HostSig : Signature := ⟨HostCall, HostCall.Ret⟩

abbrev HostCall.make (c : HostCall) : Prog HostSig c.Ret := call (S := HostSig) c

/-- `run_cmd`. -/
abbrev runCmd (bin : String) (args : List String) : Prog HostSig (Except Error Unit) :=
  (HostCall.run bin args).make

namespace LiveNet

/-! ## Sysfs -/

def readPhysical (name : String) : Prog HostSig Bool := do
  let dir ← (HostCall.readSys name).make
  return isPhysicalEthernet (fun _ => dir) name

/-- The entries that are physical Ethernets, in the order they are read. -/
def readEthernets : List String → Prog HostSig (List String)
  | [] => return []
  | name :: entries => do
    let physical ← readPhysical name
    let names ← readEthernets entries
    return if physical then name :: names else names

def readListing : Prog HostSig (Except Error (List String)) := do
  match ← HostCall.readDir.make with
  | .error e => return .error e
  | .ok entries =>
    let names ← readEthernets entries
    return .ok (names.insertionSort (· ≤ ·))

def readLinkIsUp (name : String) : Prog HostSig Bool := do
  let dir ← (HostCall.readSys name).make
  return linkIsUpSys (fun _ => dir) name

def readCarrier (name : String) : Prog HostSig Bool := do
  let dir ← (HostCall.readSys name).make
  return carrierUpSys (fun _ => dir) name

/-- What the resolution asks for. -/
def sysCall : (c : SysCall) → Prog HostSig c.Ret
  | .listPhysicalEthernet => readListing
  | .isPhysicalEthernet name => readPhysical name
  | .carrierUpSys name => readCarrier name
  | .linkIsUpSys name => readLinkIsUp name
  | .ipLinkSetUp name => runCmd ipBin ["link", "set", "dev", name, "up"]
  | .now => HostCall.now.make
  | .sleep d => (HostCall.sleep d).make

/-! ## Addresses -/

variable (isNet : List Char → Bool)

/-- `iface_ipv4_cidr`, with its text. -/
def readCidr (iface : String) : Prog HostSig (Option (List Char)) := do
  let out ← (HostCall.output ipBin ["-4", "-o", "addr", "show", "dev", iface]).make
  return out.bind (parseFirstInetCidr isNet)

/-- The same, parsed. -/
def readIpv4Cidr (iface : String) : Prog HostSig (Option Ipv4Net) := do
  return (← readCidr isNet iface).bind Ipv4Net.ofDisplay

def readHasIpv4 (iface : String) : Prog HostSig Bool := do
  return (← readCidr isNet iface).isSome

def readHasAddr (iface : String) (ip : Ipv4Addr) : Prog HostSig Bool := do
  let cidr ← readCidr isNet iface
  return cidr.any fun c => (ip.display.toList ++ ['/']).isPrefixOf c

def readAddrIsLocal (ip : Ipv4Addr) : Prog HostSig Bool := do
  match ← (HostCall.output ipBin ["-4", "-o", "addr", "show"]).make with
  | none => return false
  | some out => return stdoutHasIpv4 out ip

/-- The address of a text, or the unspecified one. -/
def addrOf (cidr : String) : Ipv4Addr := (cidrIpv4 cidr.toList).getD ⟨0, 0, 0, 0⟩

def runAddAddr (iface cidr : String) : Prog HostSig (Except Error Unit) := do
  match ← runCmd ipBin ["addr", "add", cidr, "dev", iface] with
  | .ok () => return .ok ()
  | .error e =>
    if ← readHasAddr isNet iface (addrOf cidr) then return .ok () else return .error e

/-! ## Links -/

/-- Best-effort PHY/offload tweaks after link up. -/
def applyPhyTweaks (iface : String) : Prog HostSig Unit := do
  let _ ← runCmd ethtoolBin ["--set-eee", iface, "eee", "off"]
  let _ ← runCmd ethtoolBin ["-K", iface, "tso", "off", "gso", "off"]
  let _ ← runCmd ethtoolBin ["-C", iface, "rx-usecs", "0", "tx-usecs", "0"]
  return ()

def runBringUp (iface : String) : Prog HostSig (Except Error Unit) := do
  if ← readLinkIsUp iface then
    return .ok ()
  else
    match ← runCmd ipBin ["link", "set", "dev", iface, "up"] with
    | .error e => return .error e
    | .ok () =>
      applyPhyTweaks iface
      return .ok ()

/-- A command whose error is ignored. -/
def runIgnored (args : List String) : Prog HostSig (Except Error Unit) := do
  let _ ← runCmd ipBin args
  return .ok ()

/-- `carrier` reads `1`, or `ip link` says `state UP`. -/
def readCarrierUp (iface : String) : Prog HostSig Bool := do
  if ← readCarrier iface then
    return true
  else
    match ← (HostCall.output ipBin ["link", "show", "dev", iface]).make with
    | none => return false
    | some out => return decide ("state UP".toList <:+: out)

def runPing (host : Ipv4Addr) : Prog HostSig Bool := do
  return !isErr (← runCmd pingBin ["-c", pingCount, "-W", pingTimeoutSec, host.display])

/-! ## dhclient -/

/-- A call of `pidfile` on the pidfile at `path`. -/
def pidAt (path : String) (c : PidCall) : Prog HostSig c.Ret := (HostCall.pid path c).make

/-- `pidfile::stop`. -/
def pidStop (path bin : String) : Prog HostSig (Except Error Unit) :=
  (stopIn bin processTermWait).inline (pidAt path)

/-- `pidfile::is_alive`. -/
def pidAlive (path bin : String) : Prog HostSig Bool := (isAliveIn bin).inline (pidAt path)

variable (D : DataDir)

/-- Spawn `dhclient -nw`; returns after the parent daemonizes, not after DHCPACK. -/
def runDhclient (iface : String) : Prog HostSig (Except Error Unit) := do
  if ← (HostCall.isFile dhclientBin).make then
    match ← (HostCall.createDirAll D.run).make with
    | .error e => return .error e
    | .ok () =>
      match ← (HostCall.createDirAll D.etc).make with
      | .error e => return .error e
      | .ok () =>
        runCmd dhclientBin
          ["-nw", "-pf", D.dhclientPidfile iface, "-lf", D.dhclientLeasefile iface, iface]
  else
    return .error (.dhclientMissing dhclientBin)

def waitIpv4Poll : Duration := 200 * 10 ^ 6

/-- The wait, for `n` sleeps. -/
def pollIpv4 (iface : String) (start : Nat) (timeout : Duration) : Nat → Prog HostSig Bool
  | 0 => readHasIpv4 isNet iface
  | n + 1 => do
    let now ← HostCall.now.make
    if now - start < timeout then
      if ← readHasIpv4 isNet iface then
        return true
      else
        (HostCall.sleep waitIpv4Poll).make
        pollIpv4 iface start timeout n
    else
      readHasIpv4 isNet iface

/-- As many sleeps as the timeout has room for, and the round that sees it over. -/
def runWaitIpv4 (iface : String) (timeout : Duration) : Prog HostSig Bool := do
  let start ← HostCall.now.make
  pollIpv4 isNet iface start timeout (timeout / waitIpv4Poll + 2)

/-! ## The methods -/

/-- **`impl NetOps for LiveNet`.** -/
def method : (c : NetCall) → Prog HostSig c.Ret
  | .listEthernet => readListing
  | .isPhysicalEthernet name => readPhysical name
  | .resolveIface configured => (resolveIface configured).run.inline sysCall
  | .resolveIfacePassive configured => (resolveIfacePassive configured).run.inline sysCall
  | .bringUp iface => runBringUp iface
  | .flushAddr iface => runIgnored ["addr", "flush", "dev", iface]
  | .addAddr iface cidr => runAddAddr isNet iface cidr.display
  | .ifaceHasIpv4 iface => readHasIpv4 isNet iface
  | .ifaceHasAddr iface ip => readHasAddr isNet iface ip
  | .ifaceIpv4Cidr iface => readIpv4Cidr isNet iface
  | .carrierUp iface => readCarrierUp iface
  | .linkIsUp iface => readLinkIsUp iface
  | .setDown iface => runCmd ipBin ["link", "set", "dev", iface, "down"]
  | .ipv4AddrIsLocal ip => readAddrIsLocal ip
  | .ping host => runPing host
  | .stopDhclient iface => pidStop (D.dhclientPidfile iface) dhclientBin
  | .startDhclient iface => runDhclient D iface
  | .dhclientRunning iface => pidAlive (D.dhclientPidfile iface) dhclientBin
  | .waitIpv4 iface timeout => runWaitIpv4 isNet iface timeout
  | .replaceDefaultVia gw iface =>
    runCmd ipBin ["route", "replace", "default", "via", gw.display, "dev", iface]
  | .delDefault => runIgnored ["route", "del", "default"]

end LiveNet
end Micronet

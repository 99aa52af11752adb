import Micronet.Apply

/-!
# The daemon loop

`run` applies once and then loops: reload, reconfigure, and every `STATUS_REFRESH`
a tick that watches the chosen link.  The loop is a program over two kinds of
calls: atomic accesses to the daemon's memory (`Mem`, which the control socket's
thread reads through `Shared`), and calls to the outside — among them `apply`
itself, so that the loop can be read apart from what apply does.
-/
namespace Micronet
open Interaction

/-- An `Instant`, in nanoseconds of the monotonic clock. -/
abbrev Instant : Type := Nat

/-- How often the daemon refreshes live CIDR and process flags. -/
def statusRefresh : Duration := .fromSecs 3

/-- Consecutive failed health ticks before IPC reports unhealthy. -/
def healthFailThreshold : Nat := 3

/-! ## Pure decisions -/

inductive Verdict
  | healthy
  | unhealthy (reason : String)
deriving DecidableEq, Repr

inductive HealAction
  | none
  | restartDnsmasq
  | restartDhclient
deriving DecidableEq, Repr

/-- True when the chosen iface has been without carrier long enough to re-select. -/
def shouldReselect (carrier : Bool) (downSince : Option Instant) (now : Instant)
    (retry : Duration) : Bool :=
  -- `saturating_duration_since` is the truncated difference
  !carrier && downSince.any fun t => retry ≤ now - t

def assess (mode : Mode) (carrier hasIpv4 modeProcRunning : Bool) : Verdict :=
  if !carrier then .healthy
  else if !hasIpv4 then .unhealthy "carrier but no IPv4"
  else match mode, modeProcRunning with
    | .gateway, false => .unhealthy "gateway without dnsmasq"
    | .client, false => .unhealthy "client without dhclient"
    | _, _ => .healthy

def shouldReportUnhealthy (streak : Nat) : Bool := healthFailThreshold ≤ streak

def healAction (mode : Mode) (procRunning : Bool) : HealAction :=
  match mode, procRunning with
  | .gateway, false => .restartDnsmasq
  | .client, false => .restartDhclient
  | _, _ => .none

/-- `u32::saturating_add(1)`. -/
def saturatingSucc (streak : Nat) : Nat := min (streak + 1) (2 ^ 32 - 1)

/-! ## Memory -/

/-- A lock, poisoned when a thread panicked while it was writing. -/
structure RwLock (α : Type) where
  value : α
  poisoned : Bool := false

namespace RwLock
variable {α : Type}

def read (l : RwLock α) : Option α := if l.poisoned then none else some l.value

/-- Run `f` under the write lock; a poisoned lock is left alone. -/
def modify (l : RwLock α) (f : α → α) : RwLock α :=
  if l.poisoned then l else { l with value := f l.value }

end RwLock

/-- Daemon-owned liveness. -/
structure Health where
  healthy : Bool
  reason : Option String
deriving DecidableEq, Repr

def Health.ok : Health := ⟨true, none⟩

/-- The daemon's snapshot for IPC. -/
structure Shared where
  config : RwLock Config
  status : RwLock Status
  applying : Bool
  health : RwLock Health

def Shared.new (config : Config) (status : Status) : Shared :=
  { config := { value := config }, status := { value := status }, applying := false,
    health := { value := .ok } }

structure LinkState where
  downSince : Option Instant
deriving DecidableEq

/-- What the daemon thread owns: the shared snapshot and the loop's locals. -/
structure Mem where
  shared : Shared
  link : LinkState
  failStreak : Nat
  nextRefresh : Instant

def Mem.new (config : Config) (status : Status) : Mem :=
  { shared := .new config status, link := ⟨none⟩, failStreak := 0, nextRefresh := 0 }

namespace Mem

def setApplying (b : Bool) (m : Mem) : Mem := { m with shared.applying := b }

def setConfig (cfg : Config) (m : Mem) : Mem :=
  { m with shared.config := m.shared.config.modify fun _ => cfg }

def modifyStatus (f : Status → Status) (m : Mem) : Mem :=
  { m with shared.status := m.shared.status.modify f }

def modifyHealth (f : Health → Health) (m : Mem) : Mem :=
  { m with shared.health := m.shared.health.modify f }

def setDownSince (t : Option Instant) (m : Mem) : Mem := { m with link := ⟨t⟩ }

def setStreak (n : Nat) (m : Mem) : Mem := { m with failStreak := n }

end Mem

/-! ## Calls -/

/-- What `recv_timeout` on the IPC channel returns; the only IPC event is a
reconfigure request. -/
inductive Recv
  | reconfigure
  | timeout
  | disconnected
deriving DecidableEq

/-- Calls to the outside. -/
inductive ExtCall
  /-- `apply::apply`. -/
  | apply (cfg : Config)
  /-- A method of `LiveNet` or `LiveGateway`. -/
  | ctl (c : CtlCall)
  /-- `Instant::now`. -/
  | now
  /-- Decode the JSON file; a missing file gives the defaults. -/
  | loadJson
  /-- Decode the JSON file; a missing file is created with the defaults. -/
  | loadOrCreateJson
  | serve
  | spawnWatch
  | installSignals
  /-- `stop.load`. -/
  | stopRequested
  | recvEvent
  /-- `reload_rx.try_recv().is_ok()`. -/
  | reloadPending

abbrev ExtCall.Ret : ExtCall → Type
  | .apply _ => Except Error Status
  | .ctl c => c.Ret
  | .now => Instant
  | .loadJson | .loadOrCreateJson => Except Error Config
  | .serve | .spawnWatch | .installSignals => Except Error Unit
  | .stopRequested | .reloadPending => Bool
  | .recvEvent => Recv

abbrev ExtSig : Signature := ⟨ExtCall, ExtCall.Ret⟩

inductive DaemonCall
  /-- One atomic access: the memory becomes `f m`, the answer is `m`. -/
  | mem (f : Mem → Mem)
  | ext (c : ExtCall)

abbrev DaemonCall.Ret : DaemonCall → Type
  | .mem _ => Mem
  | .ext c => c.Ret

abbrev DaemonSig : Signature := ⟨DaemonCall, DaemonCall.Ret⟩

abbrev DaemonM (α : Type) : Type := Prog DaemonSig α

abbrev ext (c : ExtCall) : DaemonM c.Ret := call (S := DaemonSig) (.ext c)

abbrev ctl (c : CtlCall) : DaemonM c.Ret := ext (.ctl c)

abbrev swapMem (f : Mem → Mem) : DaemonM Mem := call (S := DaemonSig) (.mem f)

def readMem : DaemonM Mem := swapMem id

def modifyMem (f : Mem → Mem) : DaemonM Unit := do
  let _ ← swapMem f
  return ()

/-! ## The loop's functions -/

def setHealth (healthy : Bool) (reason : Option String) : DaemonM Unit :=
  modifyMem (Mem.modifyHealth fun h =>
    if h.healthy = healthy ∧ h.reason = reason then h
    else if healthy then .ok
    else ⟨false, reason⟩)

def recordVerdict (verdict : Verdict) : DaemonM Unit := do
  match verdict with
  | .healthy =>
    modifyMem (Mem.setStreak 0)
    setHealth true none
  | .unhealthy reason =>
    modifyMem fun m => m.setStreak (saturatingSucc m.failStreak)
    let m ← readMem
    (if shouldReportUnhealthy m.failStreak then setHealth false (some reason) else pure ())

def applyNow (cfg : Config) : DaemonM (Except Error Status) := do
  modifyMem (Mem.setApplying true)
  let out ← ext (.apply cfg)
  modifyMem (Mem.setApplying false)
  return out

def storeStatus (s : Status) : DaemonM Unit := do
  modifyMem (Mem.setDownSince none)
  modifyMem (Mem.modifyStatus fun _ => s)

/-- What every successful apply of the loop is followed by. -/
def adoptStatus (s : Status) : DaemonM Unit := do
  storeStatus s
  modifyMem (Mem.setStreak 0)
  setHealth true none

/-- `config::load`. -/
def load : ExceptT Error (Prog DaemonSig) Config := do
  let cfg ← attempt (ext .loadJson)
  attempt (pure cfg.validate)
  return cfg

/-- `config::load_or_create`. -/
def loadOrCreate : ExceptT Error (Prog DaemonSig) Config := do
  let cfg ← attempt (ext .loadOrCreateJson)
  attempt (pure cfg.validate)
  return cfg

/-- A failed apply is logged; nothing else happens. -/
def applyAndAdopt (cfg : Config) : DaemonM Unit := do
  match ← applyNow cfg with
  | .ok s => adoptStatus s
  | .error _ => return ()

def onConfigReload : DaemonM Unit := do
  match ← load.run with
  | .ok newCfg =>
    let m ← swapMem (Mem.setConfig newCfg)
    if m.shared.config.poisoned then return ()
    else applyAndAdopt newCfg
  | .error _ => return ()

def onReconfigure : DaemonM Unit := do
  match (← readMem).shared.config.read with
  | some cfg => applyAndAdopt cfg
  | none => return ()

def refreshLiveStatus (iface : String) : DaemonM Unit := do
  let cidr ← ctl (.net (.ifaceIpv4Cidr iface))
  let dns ← ctl (.gw .dhcpRunning)
  modifyMem (Mem.modifyStatus fun st => { st with cidr := cidr, dnsmasqRunning := dns })

/-- The mode's own process is running. -/
def modeProcRunning (mode : Mode) (iface : String) : DaemonM Bool :=
  match mode with
  | .gateway => ctl (.gw .dhcpRunning)
  | .client => ctl (.net (.dhclientRunning iface))
  | .static => pure true

/-- A failed restart is logged; nothing else happens. -/
def maybeSelfHeal (mode : Mode) (iface : String) (cfg : Config) : DaemonM Unit := do
  let procOk ← modeProcRunning mode iface
  match healAction mode procOk with
  | .none => return ()
  | .restartDnsmasq =>
    let _ ← ctl (.gw (.dhcpReloadOrRestart cfg iface))
    return ()
  | .restartDhclient =>
    let _ ← ctl (.net (.startDhclient iface))
    return ()

/-- The tick of an interface with carrier. -/
def tickCarrier (mode : Mode) (iface : String) (cfg : Config) : DaemonM Unit := do
  modifyMem (Mem.setDownSince none)
  refreshLiveStatus iface
  maybeSelfHeal mode iface cfg
  refreshLiveStatus iface
  let cidr ← ctl (.net (.ifaceIpv4Cidr iface))
  let procOk ← modeProcRunning mode iface
  recordVerdict (assess mode true cidr.isSome procOk)

/-- The tick of an interface without carrier. -/
def tickNoCarrier (cfg : Config) (now : Instant) : DaemonM Unit := do
  modifyMem fun m => if m.link.downSince.isNone then m.setDownSince (some now) else m
  modifyMem (Mem.setStreak 0)
  setHealth true none
  let m ← readMem
  if shouldReselect false m.link.downSince now (.fromSecs cfg.linkRetrySecs) then
    applyAndAdopt cfg
  else
    return ()

def tickLink (mode : Mode) (iface : String) (cfg : Config) : DaemonM Unit := do
  let carrier ← ctl (.net (.carrierUp iface))
  let now ← ext .now
  if carrier then
    tickCarrier mode iface cfg
  else
    tickNoCarrier cfg now

def tick : DaemonM Unit := do
  if (← readMem).shared.applying then
    modifyMem (Mem.setStreak 0)
    setHealth true none
  else
    match (← readMem).shared.status.read with
    | none => return ()
    | some st =>
      if st.iface = "" then
        recordVerdict (.unhealthy "empty iface")
      else
        match (← readMem).shared.config.read with
        | none => return ()
        | some cfg => tickLink st.mode st.iface cfg

/-! ## Start and loop -/

/-- The initial apply; its failure leaves the empty status. -/
def initialStatus (cfg : Config) : DaemonM Status := do
  match ← ext (.apply cfg) with
  | .ok s => return s
  | .error _ => return .empty

/-- `run` up to its loop. -/
def start : ExceptT Error (Prog DaemonSig) Unit := do
  let cfg ← loadOrCreate
  let status ← initialStatus cfg
  modifyMem fun _ => .new cfg status
  attempt (ext .serve)
  attempt (ext .spawnWatch)
  attempt (ext .installSignals)
  let now ← ext .now
  modifyMem fun m => { m with nextRefresh := now + statusRefresh }

/-- The tick of one pass of the loop, when it is due. -/
def tickIfDue : DaemonM Unit := do
  let now ← ext .now
  let m ← readMem
  if m.nextRefresh ≤ now then
    tick
    let now ← ext .now
    modifyMem fun m => { m with nextRefresh := now + statusRefresh }
  else
    return ()

/-- One pass of the loop; `false` when it is the last. -/
def loopBody : DaemonM Bool := do
  if ← ext .stopRequested then
    return false
  else
    match ← ext .recvEvent with
    | .disconnected => return false
    | event =>
      let reload ← ext .reloadPending
      (if reload then onConfigReload else pure ())
      (if event = .reconfigure then onReconfigure else pure ())
      tickIfDue
      return true

/-- At most `n` passes of the loop. -/
def loop : Nat → DaemonM Unit
  | 0 => return ()
  | n + 1 => do
    if ← loopBody then loop n else return ()

/-- `run`, cut after `n` passes of its loop. -/
def run (n : Nat) : ExceptT Error (Prog DaemonSig) Unit := do
  start
  loop n

end Micronet

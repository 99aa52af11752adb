import Micronet.AddAddr
import Micronet.LiveMethods
import Micronet.Routes

/-!
# The machine below `LiveNet`

A `Kernel` has the devices behind sysfs, and the tables that the commands change: admin
states, addresses, default routes, pidfiles and processes.  `hostEnv` says what each call of
`LiveNet` reads of it and does with it.  A command is recognized by its arguments; those of
links, addresses, routes and dhclient may fail, and then change nothing.  Carriers and the flags
that micronet does not look at may change at every call, and processes may end and start, as long
as no dhclient does.

That a dhclient runs is what `pidfile::is_alive` says of its pidfile (`Tables.dhclient`).
-/
namespace Micronet
open Interaction Prog RustText

/-- What the commands read and change. -/
structure Tables where
  /-- Admin-up. -/
  up : String → Bool
  /-- The IPv4 addresses of an interface, in the order they are listed. -/
  addrs : String → List Ipv4Net
  /-- The default routes. -/
  routes : Routes
  /-- What the pidfiles hold, by their paths. -/
  pidfiles : String → Option Contents
  /-- The command line of the process that has a pid, while it lives. -/
  procs : Int → Option (List UInt8)

namespace Tables

/-- What the functions of `pidfile` see of the pidfile at `path`. -/
def pidTable (x : Tables) (path : String) : PidTable (List UInt8) where
  pidfile := x.pidfiles path
  procs := x.procs

/-- That table replaced. -/
def withPid (x : Tables) (path : String) (p : PidTable (List UInt8)) : Tables :=
  { x with pidfiles := Function.update x.pidfiles path p.pidfile, procs := p.procs }

/-- The pidfile at `path` names a dhclient that runs. -/
def dhclient (x : Tables) (path : String) : Bool := (x.pidTable path).alive id dhclientBin

/-- No two pidfiles name the same dhclient. -/
def Unshared (x : Tables) : Prop :=
  ∀ p q, p ≠ q → x.dhclient p = true → x.dhclient q = true →
    (x.pidTable p).named ≠ (x.pidTable q).named

/-- Nothing that micronet looks at differs; other processes may. -/
structure Alike (x y : Tables) : Prop where
  /-- The links, the addresses and the routes are the same. -/
  up : y.up = x.up
  addrs : y.addrs = x.addrs
  routes : y.routes = x.routes
  /-- So are the pidfiles, and each tells of a dhclient or of none as before. -/
  pidfiles : y.pidfiles = x.pidfiles
  dhclient : y.dhclient = x.dhclient

theorem Alike.refl (x : Tables) : x.Alike x := ⟨rfl, rfl, rfl, rfl, rfl⟩

theorem Alike.trans {x y z : Tables} (h : x.Alike y) (h' : y.Alike z) : x.Alike z :=
  ⟨h'.up.trans h.up, h'.addrs.trans h.addrs, h'.routes.trans h.routes,
    h'.pidfiles.trans h.pidfiles, h'.dhclient.trans h.dhclient⟩

theorem dhclient_iff {x : Tables} {path : String} : x.dhclient path = true ↔
    ∃ pid cmdline, (x.pidTable path).named = some pid ∧ x.procs pid = some cmdline ∧
      cmdlineMatches cmdline dhclientBin :=
  PidTable.alive_iff id

section Unshared
variable {x y : Tables} {path : String} {p : PidTable (List UInt8)}

theorem withPid_pidTable : (x.withPid path p).pidTable path = p := by
  simp [pidTable, withPid]

theorem withPid_pidTable_of_ne {q : String} (h : q ≠ path) :
    (x.withPid path p).pidTable q = ⟨x.pidfiles q, p.procs⟩ := by
  simp [pidTable, withPid, h]

theorem withPid_self : x.withPid path (x.pidTable path) = x := by
  simp [withPid, pidTable]

/-- Where no dhclient is new. -/
theorem Unshared.of_fewer (hx : x.Unshared) (h : ∀ q, y.dhclient q = true →
    x.dhclient q = true ∧ (y.pidTable q).named = (x.pidTable q).named) : y.Unshared := by
  intro q q' hne hq hq'
  rw [(h q hq).2, (h q' hq').2]
  exact hx q q' hne (h q hq).1 (h q' hq').1

theorem Unshared.of_alike (hx : x.Unshared) (h : x.Alike y) : y.Unshared := by
  refine hx.of_fewer fun q hq => ⟨h.dhclient ▸ hq, ?_⟩
  rw [pidTable, pidTable, h.pidfiles]
  rfl

/-- What `pidfile` does makes no dhclient new. -/
theorem Unshared.of_pid {c : PidCall} {r : c.Ret} (hx : x.Unshared)
    (h : PidTable.Effect id c (x.pidTable path) r p) : (x.withPid path p).Unshared := by
  have hsame : ∀ {p : PidTable (List UInt8)}, p = x.pidTable path →
      (x.withPid path p).Unshared := by
    rintro _ rfl
    rw [withPid_self]
    exact hx
  cases c with
  | readPidfile => exact hsame h.1
  | readCmdline pid => exact hsame h.1
  | sleep d => exact hsame h
  | kill pid sig =>
    rcases h with rfl | ⟨-, h⟩
    · refine hx.of_fewer fun q hq => ?_
      have htable : (x.withPid path ((x.pidTable path).exit pid)).pidTable q =
          (x.pidTable q).exit pid := by
        by_cases hne : q = path
        · subst hne
          exact withPid_pidTable
        · rw [withPid_pidTable_of_ne hne]
          rfl
      rw [Tables.dhclient, htable, PidTable.alive_exit_iff] at hq
      exact ⟨hq.2, by rw [htable, PidTable.exit_named]⟩
    · exact hsame h
  | removePidfile =>
    rcases h with ⟨-, rfl⟩ | ⟨-, h⟩
    · refine hx.of_fewer fun q hq => ?_
      by_cases hne : q = path
      · subst hne
        rw [Tables.dhclient, withPid_pidTable, PidTable.alive_of_none _ rfl] at hq
        cases hq
      · rw [Tables.dhclient, withPid_pidTable_of_ne hne] at hq
        rw [withPid_pidTable_of_ne hne]
        exact ⟨hq, rfl⟩
    · exact hsame h

/-- The table after a dhclient has started as `pid` and written its pidfile. -/
def started (x : Tables) (path : String) (pid : Int) (text : String) (cmdline : List UInt8) :
    Tables :=
  x.withPid path ⟨some (.text text), Function.update x.procs pid (some cmdline)⟩

section Started
variable {pid : Int} {text : String} {cmdline : List UInt8} (hpid : pidOf text = some pid)
  (hothers : ∀ q, q ≠ path → (x.pidTable q).named ≠ some pid)

include hothers in
theorem started_dhclient_of_ne {q : String} (hq : q ≠ path) :
    (x.started path pid text cmdline).dhclient q = x.dhclient q := by
  rw [Bool.eq_iff_iff, dhclient_iff, dhclient_iff, started, withPid_pidTable_of_ne hq]
  refine exists_congr fun pid' => exists_congr fun cmdline' => and_congr_right fun hnamed => ?_
  have hne : pid' ≠ pid := fun h => hothers q hq (h ▸ hnamed)
  show Function.update x.procs pid (some cmdline) pid' = some cmdline' ∧ _ ↔ _
  rw [Function.update_of_ne hne]

include hpid in
/-- Its pidfile names it. -/
theorem started_dhclient (hm : cmdlineMatches cmdline dhclientBin) :
    (x.started path pid text cmdline).dhclient path = true := by
  refine dhclient_iff.mpr ⟨pid, cmdline, ?_, Function.update_self .., hm⟩
  rw [started, withPid_pidTable]
  exact hpid

include hpid hothers in
/-- No other pidfile does. -/
theorem Unshared.started (hx : x.Unshared) : (x.started path pid text cmdline).Unshared := by
  have hpath : ((x.started path pid text cmdline).pidTable path).named = some pid := by
    rw [Tables.started, withPid_pidTable]
    exact hpid
  have hnamed : ∀ q, q ≠ path →
      ((x.started path pid text cmdline).pidTable q).named = (x.pidTable q).named := by
    intro q hq
    rw [Tables.started, withPid_pidTable_of_ne hq]
    rfl
  intro p q hne hp hq
  by_cases hp' : p = path
  · subst hp'
    rw [hpath, hnamed q (Ne.symm hne)]
    exact fun h => hothers q (Ne.symm hne) h.symm
  · by_cases hq' : q = path
    · subst hq'
      rw [hpath, hnamed p hp']
      exact hothers p hp'
    · rw [started_dhclient_of_ne hothers hp'] at hp
      rw [started_dhclient_of_ne hothers hq'] at hq
      rw [hnamed p hp', hnamed q hq']
      exact hx p q hne hp hq

end Started
end Unshared

/-- Nothing that micronet looks at differs but the pidfile at `path` and its dhclient. -/
structure AlikeBut (path : String) (x y : Tables) : Prop where
  /-- The links, the addresses and the routes are the same. -/
  up : y.up = x.up
  addrs : y.addrs = x.addrs
  routes : y.routes = x.routes
  /-- The other pidfiles tell of a dhclient or of none as before. -/
  dhclient : ∀ q, q ≠ path → y.dhclient q = x.dhclient q

namespace AlikeBut
variable {x y z : Tables} {path : String}

theorem refl (x : Tables) : x.AlikeBut path x := ⟨rfl, rfl, rfl, fun _ _ => rfl⟩

theorem trans (h : x.AlikeBut path y) (h' : y.AlikeBut path z) : x.AlikeBut path z :=
  ⟨h'.up.trans h.up, h'.addrs.trans h.addrs, h'.routes.trans h.routes,
    fun q hq => (h'.dhclient q hq).trans (h.dhclient q hq)⟩

theorem alike (h : x.AlikeBut path y) (h' : y.Alike z) : x.AlikeBut path z :=
  h.trans ⟨h'.up, h'.addrs, h'.routes, fun q _ => congrFun h'.dhclient q⟩

theorem started {pid : Int} {text : String} {cmdline : List UInt8}
    (hothers : ∀ q, q ≠ path → (x.pidTable q).named ≠ some pid) :
    x.AlikeBut path (x.started path pid text cmdline) :=
  ⟨rfl, rfl, rfl, fun _ hq => started_dhclient_of_ne hothers hq⟩

/-- A signal goes to the dhclient that the pidfile at `path` names, and no other pidfile names
that. -/
theorem of_pid {c : PidCall} {r : c.Ret} {p : PidTable (List UInt8)} (hx : x.Unshared)
    (h : PidTable.Effect id c (x.pidTable path) r p)
    (hc : ∀ pid sig, c = .kill pid sig →
      x.dhclient path = true ∧ (x.pidTable path).named = some pid) :
    x.AlikeBut path (x.withPid path p) := by
  have hprocs : p.procs = x.procs → x.AlikeBut path (x.withPid path p) := fun hp =>
    ⟨rfl, rfl, rfl, fun q hq => by rw [Tables.dhclient, withPid_pidTable_of_ne hq, hp]; rfl⟩
  cases c with
  | readPidfile => exact hprocs (congrArg PidTable.procs h.1)
  | readCmdline pid => exact hprocs (congrArg PidTable.procs h.1)
  | sleep d => exact hprocs (congrArg PidTable.procs h)
  | removePidfile =>
    rcases h with ⟨-, rfl⟩ | ⟨-, rfl⟩
    · exact hprocs rfl
    · exact hprocs rfl
  | kill pid sig =>
    rcases h with rfl | ⟨-, rfl⟩
    · refine ⟨rfl, rfl, rfl, fun q hq => ?_⟩
      obtain ⟨hdhclient, hnamed⟩ := hc pid sig rfl
      rw [Bool.eq_iff_iff, Tables.dhclient, withPid_pidTable_of_ne hq]
      show ((x.pidTable q).exit pid).alive id dhclientBin = true ↔ x.dhclient q = true
      rw [PidTable.alive_exit_iff]
      refine and_iff_right_of_imp fun hq' => ?_
      rw [← hnamed]
      exact hx q path hq hq' hdhclient
    · exact hprocs rfl

end AlikeBut
end Tables

/-! ## The commands -/

inductive Cmd
  | linkSet (iface : String) (up : Bool)
  | addrFlush (iface : String)
  | addrAdd (cidr : Ipv4Net) (iface : String)
  | routeReplace (gw : Ipv4Addr) (iface : String)
  | routeDel
  | ping (host : Ipv4Addr)
  | dhclient (pidfile leasefile iface : String)
  | ethtool (args : List String)

namespace Cmd

/-- The program and its arguments. -/
def argv : Cmd → String × List String
  | linkSet iface up => (ipBin, ["link", "set", "dev", iface, if up then "up" else "down"])
  | addrFlush iface => (ipBin, ["addr", "flush", "dev", iface])
  | addrAdd cidr iface => (ipBin, ["addr", "add", cidr.display, "dev", iface])
  | routeReplace gw iface =>
    (ipBin, ["route", "replace", "default", "via", gw.display, "dev", iface])
  | routeDel => (ipBin, ["route", "del", "default"])
  | ping host => (pingBin, ["-c", pingCount, "-W", pingTimeoutSec, host.display])
  | dhclient pidfile leasefile iface =>
    (dhclientBin, ["-nw", "-pf", pidfile, "-lf", leasefile, iface])
  | ethtool args => (ethtoolBin, args)

/-- **Arguments tell the command.** -/
theorem argv_inj {c d : Cmd} : c.argv = d.argv ↔ c = d := by
  have hdisplay : ∀ {n m : Ipv4Net}, n.display = m.display ↔ n = m := by
    intro n m
    rw [← String.toList_inj, Ipv4Net.display_toList_inj]
  refine ⟨fun h => ?_, fun h => h ▸ rfl⟩
  cases c <;> cases d <;>
    simp only [argv, ipBin, pingBin, dhclientBin, ethtoolBin, Prod.mk.injEq, List.cons.injEq,
      Ipv4Addr.display_inj, hdisplay] at h <;> simp_all
  rename_i a _ b
  cases a <;> cases b <;> simp_all

/-- **What a command does** on a machine with the devices `dev`.  Those of `fails` may fail, and
change nothing then; one that cannot fail is run only where it can succeed. -/
def Effect (fails : Cmd → Prop) (dev : String → Prop) :
    Cmd → Tables → Except Error Unit → Tables → Prop
  | linkSet i true, x, r, y =>
    r = .ok () ∧ dev i ∧ y = { x with up := Function.update x.up i true } ∨
      fails (linkSet i true) ∧ isErr r ∧ y = x
  -- the routes through a device go down with it
  | linkSet i false, x, r, y =>
    r = .ok () ∧ dev i ∧
      y = { x with up := Function.update x.up i false, routes := x.routes.flush i } ∨
      fails (linkSet i false) ∧ isErr r ∧ y = x
  | addrFlush i, x, _, y =>
    y = { x with addrs := Function.update x.addrs i [], routes := x.routes.flush i } ∨
      fails (addrFlush i) ∧ y = x
  -- a prefix is not added twice
  | addrAdd n i, x, r, y =>
    r = .ok () ∧ dev i ∧ n ∉ x.addrs i ∧
      y = { x with addrs := Function.update x.addrs i (x.addrs i ++ [n]) } ∨
      isErr r ∧ y = x ∧ (n ∈ x.addrs i ∨ fails (addrAdd n i))
  | routeReplace gw i, x, r, y =>
    r = .ok () ∧ y = { x with routes := x.routes.replace { dev := i, via := some gw } } ∨
      fails (routeReplace gw i) ∧ isErr r ∧ y = x
  | routeDel, x, r, y =>
    isErr r ∧ y = x ∧ (x.routes = [] ∨ fails routeDel) ∨
      r = .ok () ∧ ∃ a d b, x.routes = a ++ d :: b ∧ y = { x with routes := a ++ b }
  -- its pid is free, and no other pidfile names it
  | dhclient pidfile leasefile i, x, r, y =>
    (∃ pid text cmdline, r = .ok () ∧ pidOf text = some pid ∧ x.procs pid = none ∧
      (∀ path, path ≠ pidfile → (x.pidTable path).named ≠ some pid) ∧
      cmdlineMatches cmdline dhclientBin ∧
      y = x.started pidfile pid text cmdline) ∨
      fails (dhclient pidfile leasefile i) ∧ isErr r ∧ y = x
  | ping _, x, _, y | ethtool _, x, _, y => y = x

end Cmd

/-- A command that is run for what it writes. -/
inductive Query
  | addrShowDev (iface : String)
  | addrShow
  | linkShow (iface : String)

namespace Query

def argv : Query → String × List String
  | addrShowDev iface => (ipBin, ["-4", "-o", "addr", "show", "dev", iface])
  | addrShow => (ipBin, ["-4", "-o", "addr", "show"])
  | linkShow iface => (ipBin, ["link", "show", "dev", iface])

theorem argv_inj {q p : Query} : q.argv = p.argv ↔ q = p := by
  refine ⟨fun h => ?_, fun h => h ▸ rfl⟩
  cases q <;> cases p <;> simp_all [argv]

/-- What it writes. -/
def Answer : Query → Tables → Option (List Char) → Prop
  | addrShowDev i, x, r => ∃ es : List Entry, (∀ e ∈ es, e.name.chars = i.toList) ∧
      es.map Entry.net = x.addrs i ∧ r = some (listing es)
  | addrShow, x, r => ∃ es : List Entry,
      (∀ i : String, (es.filter fun e => e.name.chars = i.toList).map Entry.net = x.addrs i) ∧
      r = some (listing es)
  | linkShow _, _, _ => True

end Query

/-! ## The machine -/

structure Kernel where
  /-- The devices, with their admin states. -/
  cls : NetClass
  /-- Why `/sys/class/net` cannot be read, when it cannot. -/
  dirError : Option Error := none
  /-- What the commands read and change, as in `Tables`. -/
  addrs : String → List Ipv4Net
  routes : Routes
  pidfiles : String → Option Contents
  procs : Int → Option (List UInt8)

/-- Nothing but the carrier, the address and other flags differs. -/
structure Device.Alike (d d' : Device) : Prop where
  /-- It is a physical Ethernet exactly if it was one. -/
  kind : d'.kind = d.kind
  wireless : d'.wireless = d.wireless
  bridge : d'.bridge = d.bridge
  path : d'.path = d.path
  loopback : d'.flags.toNat.testBit 3 = d.flags.toNat.testBit 3

theorem Device.Alike.trans {d d' d'' : Device} (h : d.Alike d') (h' : d'.Alike d'') :
    d.Alike d'' :=
  ⟨h'.kind.trans h.kind, h'.wireless.trans h.wireless, h'.bridge.trans h.bridge,
    h'.path.trans h.path, h'.loopback.trans h.loopback⟩

theorem Device.Alike.physical {d d' : Device} (h : d.Alike d') : d'.Physical ↔ d.Physical := by
  simp only [Device.physical_iff, Device.IsVirtual, h.kind, h.wireless, h.bridge, h.path,
    h.loopback]

namespace Kernel

def up (s : Kernel) : String → Bool := linkIsUpSys s.cls.sysfs

def tables (s : Kernel) : Tables where
  up := s.up
  addrs := s.addrs
  routes := s.routes
  pidfiles := s.pidfiles
  procs := s.procs

/-- The pidfile at `path` names a dhclient that runs. -/
def dhclient (s : Kernel) : String → Bool := s.tables.dhclient

/-- Names read off the directory. -/
def listed (s : Kernel) (names : List String) : Except Error (List String) :=
  match s.dirError with
  | some e => .error e
  | none => .ok names

def Dev (s : Kernel) (i : String) : Prop := (s.cls.device i).isSome

/-- The same devices, which may be up or down. -/
structure Steady (s t : Kernel) : Prop where
  /-- The directory can be read or not as before, and has the same entries. -/
  dirError : t.dirError = s.dirError
  entries : t.cls.entries = s.cls.entries
  /-- A device is there exactly where one was. -/
  device : ∀ i, Option.Rel Device.Alike (s.cls.device i) (t.cls.device i)

/-- Nothing that micronet looks at is changed. -/
def Same (s t : Kernel) : Prop := s.Steady t ∧ s.tables.Alike t.tables

/-- **A machine that can be read**: its addresses can be listed, and a dhclient is told by its
pidfile. -/
structure Legal (s : Kernel) : Prop where
  /-- No device has a name that is taken for the mark before an address. -/
  named : ∀ i, s.Dev i → ∃ n : IfName, n.chars = i.toList ∧ ¬ n.EndsInet
  /-- Addresses are on devices. -/
  placed : ∀ i, ∀ n ∈ s.addrs i, s.Dev i
  /-- No two pidfiles name the same dhclient. -/
  unshared : s.tables.Unshared

end Kernel

/-- What dhclient may do with its interface while `LiveNet` waits for it. -/
structure Tables.Leased (i pidfile : String) (x y : Tables) : Prop where
  /-- No link goes up or down. -/
  up : y.up = x.up
  /-- It changes the addresses and the default routes of its own interface only. -/
  addrs : ∀ j, j ≠ i → y.addrs j = x.addrs j
  routes : y.routes.flush i = x.routes.flush i
  /-- No pidfile changes, and none tells of another dhclient than before. -/
  pidfiles : y.pidfiles = x.pidfiles
  dhclient : y.dhclient = x.dhclient
  /-- Nothing is done where it does not run. -/
  idle : x.dhclient pidfile = false → x.Alike y

/-- What may go otherwise: the commands that may fail, and the interface that is waited for
with the pidfile of its dhclient. -/
structure Weather where
  /-- These may do nothing and exit with an error. -/
  fails : Cmd → Prop
  /-- During the wait its dhclient may set addresses and routes between any two calls. -/
  lease : Option (String × String) := none

/-- The tables after a call, and its answer. -/
def hostEffect (w : Weather) : (c : HostCall) → Kernel → c.Ret → Tables → Prop
  | .readDir, s, r, y => r = s.listed s.cls.entries ∧ y = s.tables
  | .readSys i, s, r, y => r = s.cls.sysfs i ∧ y = s.tables
  | .run bin args, s, r, y =>
    ∃ cmd : Cmd, cmd.argv = (bin, args) ∧ cmd.Effect w.fails s.Dev s.tables r y
  | .output bin args, s, r, y =>
    (∃ q : Query, q.argv = (bin, args) ∧ q.Answer s.tables r) ∧ y = s.tables
  | .pid path c, s, r, y =>
    ∃ p, PidTable.Effect id c (s.tables.pidTable path) r p ∧ y = s.tables.withPid path p
  | .sleep _, s, _, y =>
    y = s.tables ∨ ∃ i pidfile, w.lease = some (i, pidfile) ∧ s.Dev i ∧
      s.tables.Leased i pidfile y
  | .isFile _, s, _, y | .createDirAll _, s, _, y | .now, s, _, y => y = s.tables

/-- **The environment of `LiveNet`.**  After each call flags and carriers may change, and
processes other than the dhclients of the pidfiles. -/
def hostEnv (w : Weather) : Env HostSig Kernel :=
  fun c s r t => s.Steady t ∧ ∃ y, hostEffect w c s r y ∧ y.Alike t.tables

/-! ## What is kept -/

namespace Kernel
variable {s t u : Kernel} {i : String} {w : Weather}

theorem Steady.refl (s : Kernel) : s.Steady s := by
  refine ⟨rfl, rfl, fun i => ?_⟩
  cases s.cls.device i with
  | none => exact .none
  | some d => exact .some ⟨rfl, rfl, rfl, rfl, rfl⟩

theorem Steady.trans (h : s.Steady t) (h' : t.Steady u) : s.Steady u := by
  refine ⟨h'.dirError.trans h.dirError, h'.entries.trans h.entries, fun i => ?_⟩
  have hst := h.device i
  have htu := h'.device i
  revert hst htu
  cases s.cls.device i <;> cases t.cls.device i <;> cases u.cls.device i <;> intro hst htu <;>
    cases hst <;> cases htu
  · exact .none
  · rename_i hst htu
    exact .some (hst.trans htu)

theorem Same.refl (s : Kernel) : s.Same s := ⟨.refl s, .refl _⟩

theorem Same.trans (h : s.Same t) (h' : t.Same u) : s.Same u :=
  ⟨h.1.trans h'.1, h.2.trans h'.2⟩

theorem Steady.dev (h : s.Steady t) : t.Dev i ↔ s.Dev i := by
  have hi := h.device i
  unfold Dev
  revert hi
  cases s.cls.device i <;> cases t.cls.device i <;> intro hi <;> cases hi <;> simp

/-- What is a physical Ethernet stays one. -/
theorem Steady.physical (h : s.Steady t) (i : String) :
    isPhysicalEthernet t.cls.sysfs i = isPhysicalEthernet s.cls.sysfs i := by
  rw [Bool.eq_iff_iff, NetClass.isPhysicalEthernet_iff, NetClass.isPhysicalEthernet_iff]
  have hi := h.device i
  revert hi
  cases s.cls.device i <;> cases t.cls.device i <;> intro hi <;> cases hi
  · simp
  · rename_i hi
    simp [hi.physical]

theorem Steady.listEthernet (h : s.Steady t) : t.cls.listEthernet = s.cls.listEthernet := by
  rw [NetClass.listEthernet, NetClass.listEthernet, h.entries,
    show isPhysicalEthernet t.cls.sysfs = isPhysicalEthernet s.cls.sysfs from funext h.physical]

/-- Addresses on the devices stay so. -/
theorem Legal.of_steady (hs : s.Legal) (h : s.Steady t)
    (haddrs : ∀ i, t.addrs i = s.addrs i ∨ t.addrs i = [] ∨ s.Dev i)
    (hunshared : t.tables.Unshared) : t.Legal := by
  refine ⟨fun i hi => hs.named i (h.dev.mp hi), fun i n hn => h.dev.mpr ?_, hunshared⟩
  rcases haddrs i with hi | hi | hi
  · exact hs.placed i n (hi ▸ hn)
  · rw [hi] at hn
    cases hn
  · exact hi

theorem update_addrs {l : List Ipv4Net} (h : l = [] ∨ s.Dev i) (j : String) :
    Function.update s.addrs i l j = s.addrs j ∨ Function.update s.addrs i l j = [] ∨ s.Dev j := by
  by_cases hj : j = i
  · subst hj
    rw [Function.update_self]
    exact Or.inr h
  · exact Or.inl (Function.update_of_ne hj _ _)

/-- What a call leaves can be read: its addresses were there or are on a device, and its
dhclients are told by their pidfiles. -/
def Readable (s : Kernel) (y : Tables) : Prop :=
  (∀ j, y.addrs j = s.addrs j ∨ y.addrs j = [] ∨ s.Dev j) ∧ y.Unshared

theorem readable_of_addrs {y : Tables} {l : List Ipv4Net} (hs : s.tables.Unshared)
    (haddrs : y.addrs = Function.update s.addrs i l) (hl : l = [] ∨ s.Dev i)
    (hpidfiles : y.pidfiles = s.pidfiles) (hprocs : y.procs = s.procs) : s.Readable y := by
  refine ⟨fun j => haddrs ▸ update_addrs hl j, hs.of_fewer fun q hq => ?_⟩
  have htable : y.pidTable q = s.tables.pidTable q := by
    rw [Tables.pidTable, hpidfiles, hprocs]
    rfl
  exact ⟨by rwa [Tables.dhclient, ← htable], by rw [htable]⟩

theorem effect_readable {c : HostCall} {r : c.Ret} {y : Tables} (hs : s.tables.Unshared)
    (h : hostEffect w c s r y) : s.Readable y := by
  have hsame : ∀ {z : Tables}, z = s.tables → s.Readable z := by
    rintro _ rfl
    exact ⟨fun _ => Or.inl rfl, hs⟩
  have hlinks : ∀ {up : String → Bool} {routes : Routes},
      s.Readable { s.tables with up := up, routes := routes } := fun {up routes} =>
    ⟨fun _ => Or.inl rfl, hs.of_fewer fun q hq => ⟨hq, rfl⟩⟩
  cases c with
  | readDir => exact hsame h.2
  | readSys i => exact hsame h.2
  | output bin args => exact hsame h.2
  | isFile path => exact hsame h
  | createDirAll path => exact hsame h
  | now => exact hsame h
  | pid path c =>
    obtain ⟨p, hp, rfl⟩ := h
    exact ⟨fun _ => Or.inl rfl, hs.of_pid hp⟩
  | sleep d =>
    rcases h with h | ⟨i, pidfile, -, hdev, h⟩
    · exact hsame h
    · refine ⟨fun j => ?_, hs.of_fewer fun q hq => ⟨h.dhclient ▸ hq, ?_⟩⟩
      · by_cases hj : j = i
        · exact Or.inr (Or.inr (hj ▸ hdev))
        · exact Or.inl (h.addrs j hj)
      · rw [Tables.pidTable, Tables.pidTable, h.pidfiles]
        rfl
  | run bin args =>
    obtain ⟨cmd, -, h⟩ := h
    cases cmd with
    | linkSet i up =>
      cases up
      all_goals
        rcases h with ⟨-, -, rfl⟩ | ⟨-, -, rfl⟩
        · exact hlinks
        · exact hsame rfl
    | addrFlush i =>
      rcases h with rfl | ⟨-, rfl⟩
      · exact readable_of_addrs hs rfl (Or.inl rfl) rfl rfl
      · exact hsame rfl
    | addrAdd n i =>
      rcases h with ⟨-, hdev, -, rfl⟩ | ⟨-, rfl, -⟩
      · exact readable_of_addrs hs rfl (Or.inr hdev) rfl rfl
      · exact hsame rfl
    | routeReplace gw i =>
      rcases h with ⟨-, rfl⟩ | ⟨-, -, rfl⟩
      · exact hlinks
      · exact hsame rfl
    | routeDel =>
      rcases h with ⟨-, rfl, -⟩ | ⟨-, a, d, b, -, rfl⟩
      · exact hsame rfl
      · exact hlinks
    | dhclient pidfile leasefile i =>
      rcases h with ⟨pid, text, cmdline, -, hpid, -, hothers, -, rfl⟩ | ⟨-, -, rfl⟩
      · exact ⟨fun _ => Or.inl rfl, hs.started hpid hothers⟩
      · exact hsame rfl
    | ping host => exact hsame h
    | ethtool args => exact hsame h

/-- **Every call keeps it.** -/
theorem Legal.step {c : HostCall} {r : c.Ret} (hs : s.Legal) (h : hostEnv w c s r t) :
    t.Legal := by
  obtain ⟨hsteady, y, heffect, halike⟩ := h
  obtain ⟨haddrs, hunshared⟩ := effect_readable hs.unshared heffect
  refine hs.of_steady hsteady (fun j => ?_) (hunshared.of_alike halike)
  rw [show t.addrs = y.addrs from halike.addrs]
  exact haddrs j

/-! ## Reading -/

section Reading
variable {isNet : List Char → Bool}

/-- **The look rule**: a call that changes no table. -/
theorem wp_look {α : Type} {c : HostCall} {k : c.Ret → Prog HostSig α} {Q : α → Kernel → Prop}
    (hc : ∀ r y, hostEffect w c s r y → y = s.tables)
    (h : ∀ r t, hostEffect w c s r s.tables → s.Same t → wp (hostEnv w) (k r) Q t) :
    wp (hostEnv w) (.call c k) Q s := by
  rintro r t ⟨hsteady, y, heffect, halike⟩
  obtain rfl := hc r y heffect
  exact h r t heffect ⟨hsteady, halike⟩

theorem wp_readSys {α : Type} {f : Option SysDir → α} :
    wp (hostEnv w) (do return f (← (HostCall.readSys i).make))
      (fun r t => r = f (s.cls.sysfs i) ∧ s.Same t) s :=
  wp_look (fun _ _ h => h.2) fun _ _ h hst => ⟨congrArg f h.1, hst⟩

theorem wp_readPhysical : wp (hostEnv w) (LiveNet.readPhysical i)
    (fun r t => r = isPhysicalEthernet s.cls.sysfs i ∧ s.Same t) s := wp_readSys

theorem wp_readLinkIsUp : wp (hostEnv w) (LiveNet.readLinkIsUp i)
    (fun r t => r = s.up i ∧ s.Same t) s := wp_readSys

theorem wp_readCarrier : wp (hostEnv w) (LiveNet.readCarrier i)
    (fun r t => r = carrierUpSys s.cls.sysfs i ∧ s.Same t) s := wp_readSys

theorem wp_readEthernets {entries : List String} :
    wp (hostEnv w) (LiveNet.readEthernets entries)
      (fun r t => r = entries.filter (isPhysicalEthernet s.cls.sysfs) ∧ s.Same t) s := by
  induction entries generalizing s with
  | nil => exact ⟨rfl, .refl s⟩
  | cons name entries ih =>
    rw [LiveNet.readEthernets, wp_bind]
    refine wp_mono wp_readPhysical ?_
    rintro physical t ⟨rfl, hst⟩
    rw [wp_bind]
    refine wp_mono ih ?_
    rintro names u ⟨rfl, htu⟩
    have hfilter : isPhysicalEthernet t.cls.sysfs = isPhysicalEthernet s.cls.sysfs :=
      funext hst.1.physical
    exact ⟨by rw [hfilter, List.filter_cons], hst.trans htu⟩

theorem wp_readListing : wp (hostEnv w) LiveNet.readListing
    (fun r t => r = s.listed s.cls.listEthernet ∧ s.Same t) s := by
  rw [LiveNet.readListing, wp_bind]
  refine wp_look (fun _ _ h => h.2) fun r t h hst => ?_
  rw [wp_ret, h.1]
  unfold listed
  cases s.dirError with
  | some e => exact ⟨rfl, hst⟩
  | none =>
    refine wp_bind.mpr (wp_mono wp_readEthernets ?_)
    rintro names u ⟨rfl, htu⟩
    refine ⟨?_, hst.trans htu⟩
    have hfilter : isPhysicalEthernet t.cls.sysfs = isPhysicalEthernet s.cls.sysfs :=
      funext hst.1.physical
    rw [hfilter]
    rfl

theorem wp_output {α : Type} {q : Query} {k : Option (List Char) → Prog HostSig α}
    {Q : α → Kernel → Prop}
    (h : ∀ r t, q.Answer s.tables r → s.Same t → wp (hostEnv w) (k r) Q t) :
    wp (hostEnv w) (.call (.output q.argv.1 q.argv.2) k) Q s := by
  refine wp_look (fun _ _ h => h.2) fun r t heffect hst => ?_
  obtain ⟨p, hp, hanswer⟩ := heffect.1
  obtain rfl := Query.argv_inj.mp hp
  exact h r t hanswer hst

theorem Legal.not_endsInet (hs : s.Legal) {n : IfName} (hn : n.chars = i.toList) (hi : s.Dev i) :
    ¬ n.EndsInet := by
  obtain ⟨m, hm, hend⟩ := hs.named i hi
  unfold IfName.EndsInet at hend ⊢
  rwa [hn, ← hm]

/-- Every address that is listed is on a line that is read. -/
theorem Legal.visible (hs : s.Legal) {es : List Entry}
    (h : ∀ e ∈ es, ∃ i : String, e.name.chars = i.toList ∧ e.net ∈ s.addrs i) :
    visible es = es.map Entry.net := by
  rw [Micronet.visible, List.filter_eq_self.mpr]
  intro e he
  obtain ⟨i, hi, hmem⟩ := h e he
  simpa using hs.not_endsInet hi (hs.placed i e.net hmem)

/-- **The preferred prefix of an interface**, as it is printed. -/
theorem wp_readCidr (hnet : ∀ n : Ipv4Net, isNet n.display.toList = true) (hs : s.Legal) :
    wp (hostEnv w) (LiveNet.readCidr isNet i)
      (fun r t => r = (firstInetCidr (s.addrs i)).map (fun n => n.display.toList) ∧
        s.Same t) s := by
  refine wp_output (q := .addrShowDev i) fun r t hanswer hst => ?_
  obtain ⟨es, hname, hmap, rfl⟩ := hanswer
  change es.map Entry.net = s.addrs i at hmap
  refine ⟨?_, hst⟩
  have hvisible : Micronet.visible es = es.map Entry.net := hs.visible fun e he =>
    ⟨i, hname e he, hmap ▸ List.mem_map_of_mem he⟩
  rw [Option.bind_some, parseFirstInetCidr_listing hnet, hvisible, hmap]

theorem isSome_firstInetCidr (l : List Ipv4Net) : (firstInetCidr l).isSome = !l.isEmpty := by
  cases l with
  | nil => rfl
  | cons n l =>
    have hsome : firstInetCidr (n :: l) ≠ none := fun h => by
      cases Net.firstInetCidr_eq_none.mp h
    exact Option.isSome_iff_ne_none.mpr hsome

theorem wp_readHasIpv4 (hnet : ∀ n : Ipv4Net, isNet n.display.toList = true) (hs : s.Legal) :
    wp (hostEnv w) (LiveNet.readHasIpv4 isNet i)
      (fun r t => r = !(s.addrs i).isEmpty ∧ s.Same t) s := by
  refine wp_bind.mpr (wp_mono (wp_readCidr hnet hs) ?_)
  rintro cidr t ⟨rfl, hst⟩
  exact ⟨by rw [Option.isSome_map, isSome_firstInetCidr], hst⟩

theorem wp_readHasAddr (hnet : ∀ n : Ipv4Net, isNet n.display.toList = true) (hs : s.Legal)
    {ip : Ipv4Addr} :
    wp (hostEnv w) (LiveNet.readHasAddr isNet i ip)
      (fun r t => r = (firstInetCidr (s.addrs i)).any (·.addr = ip) ∧ s.Same t) s := by
  refine wp_bind.mpr (wp_mono (wp_readCidr hnet hs) ?_)
  rintro cidr t ⟨rfl, hst⟩
  refine ⟨?_, hst⟩
  rw [Option.any_map, Bool.eq_iff_iff, Option.any_eq_true, Option.any_eq_true]
  simp only [prefix_display, decide_eq_true_eq]

theorem wp_readAddrIsLocal (hs : s.Legal) {ip : Ipv4Addr} :
    wp (hostEnv w) (LiveNet.readAddrIsLocal ip)
      (fun r t => (r = true ↔ ∃ i, ∃ n ∈ s.addrs i, n.addr = ip) ∧ s.Same t) s := by
  refine wp_output (q := .addrShow) fun r t hanswer hst => ?_
  obtain ⟨es, hes, rfl⟩ := hanswer
  refine ⟨?_, hst⟩
  have hmem : ∀ e ∈ es, ∃ i : String, e.name.chars = i.toList ∧ e.net ∈ s.addrs i := by
    intro e he
    refine ⟨String.ofList e.name.chars, by simp, ?_⟩
    rw [show s.addrs = s.tables.addrs from rfl, ← hes]
    exact List.mem_map_of_mem (List.mem_filter.mpr ⟨he, by simp⟩)
  rw [stdoutHasIpv4_listing, hs.visible hmem]
  constructor
  · rintro ⟨n, hn, rfl⟩
    obtain ⟨e, he, rfl⟩ := List.mem_map.mp hn
    obtain ⟨i, -, hmem⟩ := hmem e he
    exact ⟨i, e.net, hmem, rfl⟩
  · rintro ⟨i, n, hn, rfl⟩
    rw [show s.addrs = s.tables.addrs from rfl, ← hes, List.mem_map] at hn
    obtain ⟨e, he, rfl⟩ := hn
    exact ⟨e.net, List.mem_map_of_mem (List.mem_filter.mp he).1, rfl⟩

end Reading
end Kernel
end Micronet

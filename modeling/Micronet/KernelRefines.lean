import Micronet.Kernel
import Micronet.Machine
import Micronet.Simulation

/-!
# `LiveNet` refines the abstract network

A `Net` with its default routes **shows** a machine when it has the machine's physical
Ethernets, admin states, addresses, dhclients and default routes.  Each method of `LiveNet`,
run on a machine, is matched by the call of `NetOps` on what shows it
(`liveNet_simulates`), so all that is proved of a program over the abstract network holds of
it over the machine.

The abstract calls that may fail are those whose command may.  `LiveNet` drops the error of a
flush and of the removal of a default route, and takes an address that cannot be added as added
if it is there under another prefix; the abstract calls then do nothing and succeed
(`NetCall.Vain`).  A stop of dhclient succeeds, and ends it.
-/
namespace Micronet
open Interaction Prog RustText

theorem DataDir.dhclientPidfile_inj (D : DataDir) {i j : String} :
    D.dhclientPidfile i = D.dhclientPidfile j ↔ i = j := by
  rw [dhclientPidfile, dhclientPidfile, ← String.toList_inj]
  simp [String.toList_inj]

/-- A call that may fail: its command may, or the address or dhclient is not there. -/
def NetCall.MayFail (fails : Cmd → Prop) : NetCall → Prop
  | .bringUp i => fails (.linkSet i true)
  | .setDown i => fails (.linkSet i false)
  | .addAddr _ _ | .startDhclient _ => True
  | .replaceDefaultVia gw i => fails (.routeReplace gw i)
  | _ => False

/-- A call that may succeed although its command has failed and nothing was done. -/
def NetCall.Vain (fails : Cmd → Prop) : NetCall → Net → Prop
  | .flushAddr i, _ => fails (.addrFlush i)
  | .delDefault, _ => fails .routeDel
  | .addAddr i n, s => fails (.addrAdd n i) ∧ ∃ m ∈ s.addrsOf i, m.addr = n.addr
  | _, _ => False

/-- What is waited for while a method runs. -/
def DataDir.weather (D : DataDir) (fails : Cmd → Prop) : NetCall → Weather
  | .waitIpv4 i _ => { fails := fails, lease := some (i, D.dhclientPidfile i) }
  | _ => { fails := fails }

/-- **`LiveNet` on a machine.** -/
def liveEnv (isNet : List Char → Bool) (D : DataDir) (fails : Cmd → Prop) : Env NetSig Kernel :=
  fun c s r t => (LiveNet.method isNet D c).Exec (hostEnv (D.weather fails c)) s r t

/-- **The network that a legal machine is.** -/
structure Kernel.Shows (D : DataDir) (s : Kernel) (x : Net × Routes) : Prop where
  legal : s.Legal
  /-- Its physical Ethernets, in the order that they are listed in. -/
  ethernets : x.1.ethernets = s.cls.listEthernet
  /-- Its listing fails exactly if `/sys/class/net` cannot be read. -/
  listError : x.1.listError = s.dirError
  /-- `IFF_UP`. -/
  up : x.1.up = s.up
  /-- Its addresses and its default routes. -/
  addrs : ∀ i, x.1.addrsOf i = s.addrs i
  /-- What `pidfile::is_alive` says. -/
  dhclient : ∀ i, x.1.dhclient i = s.dhclient (D.dhclientPidfile i)
  routes : x.2 = s.routes

namespace Kernel
variable {D : DataDir} {s t : Kernel} {x : Net × Routes} {w : Weather} {i : String}

/-- What shows a machine after a call that leaves the tables `z`. -/
theorem Shows.move {y : Net × Routes} {z : Tables} (hx : s.Shows D x) (hst : s.Steady t)
    (ht : t.Legal) (hz : z.Alike t.tables)
    (hlisting : y.1.ethernets = x.1.ethernets ∧ y.1.listError = x.1.listError)
    (hup : y.1.up = z.up) (haddrs : ∀ i, y.1.addrsOf i = z.addrs i)
    (hdhclient : ∀ i, y.1.dhclient i = z.dhclient (D.dhclientPidfile i))
    (hroutes : y.2 = z.routes) : t.Shows D y := by
  exact ⟨ht, by rw [hlisting.1, hx.ethernets, hst.listEthernet],
    by rw [hlisting.2, hx.listError, hst.dirError], hup.trans hz.up.symm,
    fun i => (haddrs i).trans (congrFun hz.addrs i).symm,
    fun i => (hdhclient i).trans (congrFun hz.dhclient _).symm, hroutes.trans hz.routes.symm⟩

theorem Same.legal (h : s.Same t) (hs : s.Legal) : t.Legal :=
  hs.of_steady h.1 (fun i => Or.inl (congrFun h.2.addrs i)) (hs.unshared.of_alike h.2)

theorem Shows.same (hx : s.Shows D x) (h : s.Same t) : t.Shows D x :=
  hx.move h.1 (h.legal hx.legal) h.2 ⟨rfl, rfl⟩ hx.up hx.addrs hx.dhclient hx.routes

theorem Shows.setUp (hx : s.Shows D x) (hst : s.Steady t) (ht : t.Legal)
    (hz : { s.tables with up := Function.update s.up i true }.Alike t.tables) :
    t.Shows D (x.1.setUp i true, x.2) :=
  hx.move hst ht hz ⟨rfl, rfl⟩
    (congrArg (fun up : String → Bool => Function.update up i true) hx.up) hx.addrs hx.dhclient
    hx.routes

/-- **The run rule.** -/
theorem wp_run {α : Type} {c : Cmd} {k : Except Error Unit → Prog HostSig α}
    {Q : α → Kernel → Prop} (hs : s.Legal)
    (h : ∀ r t y, s.Steady t → t.Legal → c.Effect w.fails s.Dev s.tables r y →
      y.Alike t.tables → wp (hostEnv w) (k r) Q t) :
    wp (hostEnv w) (.call (.run c.argv.1 c.argv.2) k) Q s := by
  intro r t hE
  have ht := hs.step hE
  obtain ⟨hst, y, ⟨d, hargv, heffect⟩, halike⟩ := hE
  obtain rfl := Cmd.argv_inj.mp hargv
  exact h r t y hst ht heffect halike

theorem Shows.listing (hx : s.Shows D x) : x.1.listing = s.listed s.cls.listEthernet := by
  have hlist := hx.listError
  rcases Option.eq_none_or_eq_some s.dirError with hdir | ⟨e, hdir⟩
  · simp only [Net.listing, listed, hlist.trans hdir, hdir, hx.ethernets]
  · simp only [Net.listing, listed, hlist.trans hdir, hdir]

theorem Shows.physical (hx : s.Shows D x) (i : String) :
    isPhysicalEthernet s.cls.sysfs i = decide (i ∈ x.1.ethernets) := by
  rw [Bool.eq_iff_iff, decide_eq_true_iff, hx.ethernets, NetClass.mem_listEthernet,
    NetClass.isPhysicalEthernet_iff]

/-- An answered call is matched. -/
def Matched (D : DataDir) (fails : Cmd → Prop) (x : Net × Routes) (c : NetCall) (r : c.Ret)
    (t : Kernel) : Prop :=
  ∃ y, Net.routedSlack (NetCall.MayFail fails) (NetCall.Vain fails) c x r y ∧ t.Shows D y

/-! ## Resolution -/

/-- The calls of the resolution leave the routes alone. -/
def sysRouted : Env SysSig (Net × Routes) := fun c x r y => Net.sysEnv c x.1 r y.1 ∧ y.2 = x.2

theorem exec_sysRouted {α : Type} {p : Prog SysSig α} {x y : Net × Routes} {a : α}
    (h : p.Exec sysRouted x a y) : p.Exec Net.sysEnv x.1 a y.1 ∧ y.2 = x.2 :=
  ⟨h.map (f := Prod.fst) fun _ _ _ _ h => h.1,
    h.keeps (I := fun u => u.2 = x.2) (fun _ _ _ _ hu h => h.2.trans hu) rfl⟩

theorem sysCall_simulates (hw : w.lease = none) :
    Simulates ((hostEnv w).inlined LiveNet.sysCall) sysRouted (Shows D) := by
  intro c s r t x hx hexec
  suffices h : wp (hostEnv w) (LiveNet.sysCall c)
      (fun r t => ∃ y, sysRouted c x r y ∧ t.Shows D y) s from wp_iff.mp h r t hexec
  cases c with
  | listPhysicalEthernet =>
    refine wp_mono wp_readListing ?_
    rintro r t ⟨rfl, hst⟩
    exact ⟨x, ⟨⟨hx.listing.symm, rfl⟩, rfl⟩, hx.same hst⟩
  | isPhysicalEthernet name =>
    refine wp_mono wp_readPhysical ?_
    rintro r t ⟨rfl, hst⟩
    exact ⟨x, ⟨⟨hx.physical name, rfl⟩, rfl⟩, hx.same hst⟩
  | carrierUpSys name =>
    refine wp_mono wp_readCarrier ?_
    rintro r t ⟨-, hst⟩
    exact ⟨x, ⟨rfl, rfl⟩, hx.same hst⟩
  | linkIsUpSys name =>
    refine wp_mono wp_readLinkIsUp ?_
    rintro r t ⟨rfl, hst⟩
    exact ⟨x, ⟨⟨by rw [hx.up], rfl⟩, rfl⟩, hx.same hst⟩
  | ipLinkSetUp name =>
    refine wp_run (c := .linkSet name true) hx.legal fun r t y hst ht heffect halike => ?_
    rcases heffect with ⟨rfl, -, rfl⟩ | ⟨-, herr, rfl⟩
    · exact ⟨(x.1.setUp name true, x.2), ⟨Or.inl ⟨rfl, rfl⟩, rfl⟩, hx.setUp hst ht halike⟩
    · exact ⟨x, ⟨Or.inr ⟨isErr_iff.mp herr, rfl⟩, rfl⟩, hx.same ⟨hst, halike⟩⟩
  | now => exact wp_look (fun _ _ h => h) fun _ _ _ hst => ⟨x, ⟨rfl, rfl⟩, hx.same hst⟩
  | sleep d =>
    refine wp_look (fun r y h => ?_) fun _ _ _ hst => ⟨x, ⟨rfl, rfl⟩, hx.same hst⟩
    rcases h with h | ⟨i, pidfile, hlease, -⟩
    · exact h
    · rw [hw] at hlease
      cases hlease

/-! ## The methods -/

section Methods
variable {isNet : List Char → Bool} {fails : Cmd → Prop}

/-- A call that reads what the network says. -/
theorem Shows.reads {c : NetCall} {r : c.Ret} (hx : s.Shows D x) (hst : s.Same t)
    (h : Net.Effect c x.1 r x.1) (hroutes : Routes.Effect c x.1 x.2 x.2) :
    Matched D fails x c r t :=
  ⟨x, Or.inl (Or.inl ⟨h, hroutes⟩), hx.same hst⟩

/-- A call that fails and changes nothing. -/
theorem Shows.failed {c : NetCall} {r : c.Ret} (hx : s.Shows D x) (hst : s.Same t)
    (hc : c.MayFail fails) (hr : c.isErr r = true) : Matched D fails x c r t :=
  ⟨x, Or.inl (Or.inr ⟨hc, hr, rfl⟩), hx.same hst⟩

/-- A call that changes nothing and succeeds. -/
theorem Shows.vain {c : NetCall} {r : c.Ret} (hx : s.Shows D x) (hst : s.Same t)
    (hc : c.unchecked) (hvain : c.Vain fails x.1) (hr : c.isErr r = false) :
    Matched D fails x c r t :=
  ⟨x, Or.inr ⟨hc, hvain, hr, rfl⟩, hx.same hst⟩

/-- A call that does what it says. -/
theorem Shows.done {c : NetCall} {r : c.Ret} {y : Net × Routes} (ht : t.Shows D y)
    (h : Net.Effect c x.1 r y.1) (hroutes : Routes.Effect c x.1 x.2 y.2) :
    Matched D fails x c r t :=
  ⟨y, Or.inl (Or.inl ⟨h, hroutes⟩), ht⟩

theorem wp_resolve (hx : s.Shows D x) (hw : w.lease = none)
    {p : Prog SysSig (Except Error String)} :
    wp (hostEnv w) (p.inline LiveNet.sysCall)
      (fun r t => ∃ y, p.Exec Net.sysEnv x.1 r y.1 ∧ y.2 = x.2 ∧ t.Shows D y) s := by
  refine wp_iff.mpr fun r t hexec => ?_
  obtain ⟨y, hy, ht⟩ := (sysCall_simulates hw).exec hx (exec_inlined.mp hexec)
  exact ⟨y, (exec_sysRouted hy).1, (exec_sysRouted hy).2, ht⟩

theorem setUp_of_up {n : Net} (h : n.up i = true) : n.setUp i true = n := by
  unfold Net.setUp
  rw [← h, Function.update_eq_self]

theorem wp_bringUp (hw : w.fails = fails) (hx : s.Shows D x) :
    wp (hostEnv w) (LiveNet.runBringUp i) (Matched D fails x (.bringUp i)) s := by
  rw [LiveNet.runBringUp, wp_bind]
  refine wp_mono wp_readLinkIsUp ?_
  rintro up t ⟨rfl, hst⟩
  rw [wp_ite]
  refine ⟨fun hup => ?_, fun _ => ?_⟩
  · refine hx.reads hst ⟨rfl, ?_⟩ rfl
    rw [setUp_of_up (hx.up ▸ hup)]
  · rw [wp_bind]
    have hxt := hx.same hst
    refine wp_run (c := .linkSet i true) hxt.legal fun r u y htu hu heffect halike => ?_
    rw [wp_ret]
    rcases heffect with ⟨rfl, -, rfl⟩ | ⟨hfails, herr, rfl⟩
    · -- nothing of the tweaks is looked at
      have hxu : u.Shows D (x.1.setUp i true, x.2) := hxt.setUp htu hu halike
      have htweak : ∀ {v : Kernel} {args : List String} {k : Except Error Unit → Prog HostSig _},
          v.Shows D (x.1.setUp i true, x.2) →
          (∀ r z, z.Shows D (x.1.setUp i true, x.2) →
            wp (hostEnv w) (k r) (Matched D fails x (.bringUp i)) z) →
          wp (hostEnv w) (.call (.run ethtoolBin args) k) (Matched D fails x (.bringUp i)) v := by
        refine fun hv hk => wp_run (c := .ethtool _) hv.legal fun r z y hvz _ heffect halike => ?_
        obtain rfl : y = _ := heffect
        exact hk r z (hv.same ⟨hvz, halike⟩)
      show wp _ (LiveNet.applyPhyTweaks i >>= _) _ _
      rw [wp_bind]
      refine htweak hxu fun _ _ h => htweak h fun _ _ h => htweak h fun _ _ h => ?_
      exact Shows.done h ⟨rfl, rfl⟩ rfl
    · obtain ⟨e, rfl⟩ := isErr_iff.mp herr
      exact hxt.failed ⟨htu, halike⟩ (hw ▸ hfails) rfl

theorem wp_flushAddr (hw : w.fails = fails) (hx : s.Shows D x) :
    wp (hostEnv w) (LiveNet.runIgnored ["addr", "flush", "dev", i])
      (Matched D fails x (.flushAddr i)) s := by
  refine wp_run (c := .addrFlush i) hx.legal fun r t y hst ht heffect halike => ?_
  rcases heffect with rfl | ⟨hfails, rfl⟩
  · refine Shows.done (y := (x.1.flush i, x.2.flush i)) ?_ ⟨rfl, rfl⟩ rfl
    refine hx.move hst ht halike ⟨rfl, rfl⟩ hx.up (fun j => ?_) hx.dhclient (by rw [hx.routes]; rfl)
    show _ = Function.update s.addrs i [] j
    rw [Net.flush_addrsOf, Function.update_apply, hx.addrs]
  · have hvain : NetCall.Vain fails (.flushAddr i) x.1 := hw ▸ hfails
    exact hx.vain ⟨hst, halike⟩ rfl hvain rfl

theorem wp_setDown (hw : w.fails = fails) (hx : s.Shows D x) :
    wp (hostEnv w) (runCmd ipBin ["link", "set", "dev", i, "down"])
      (Matched D fails x (.setDown i)) s := by
  refine wp_run (c := .linkSet i false) hx.legal fun r t y hst ht heffect halike => ?_
  rcases heffect with ⟨rfl, -, rfl⟩ | ⟨hfails, herr, rfl⟩
  · refine Shows.done (y := (x.1.setUp i false, x.2.flush i)) ?_ ⟨rfl, rfl⟩ rfl
    exact hx.move hst ht halike ⟨rfl, rfl⟩
      (congrArg (fun up : String → Bool => Function.update up i false) hx.up) hx.addrs hx.dhclient
      (congrArg (Routes.flush i) hx.routes)
  · exact hx.failed ⟨hst, halike⟩ (hw ▸ hfails) herr

theorem wp_replaceDefaultVia (hw : w.fails = fails) (hx : s.Shows D x) {gw : Ipv4Addr} :
    wp (hostEnv w) (runCmd ipBin ["route", "replace", "default", "via", gw.display, "dev", i])
      (Matched D fails x (.replaceDefaultVia gw i)) s := by
  refine wp_run (c := .routeReplace gw i) hx.legal fun r t y hst ht heffect halike => ?_
  rcases heffect with ⟨rfl, rfl⟩ | ⟨hfails, herr, rfl⟩
  · refine Shows.done (y := (x.1, x.2.replace { dev := i, via := some gw })) ?_ ⟨rfl, rfl⟩ rfl
    exact hx.move hst ht halike ⟨rfl, rfl⟩ hx.up hx.addrs hx.dhclient (by rw [hx.routes]; rfl)
  · exact hx.failed ⟨hst, halike⟩ (hw ▸ hfails) herr

theorem wp_delDefault (hw : w.fails = fails) (hx : s.Shows D x) :
    wp (hostEnv w) (LiveNet.runIgnored ["route", "del", "default"])
      (Matched D fails x .delDefault) s := by
  refine wp_run (c := .routeDel) hx.legal fun r t y hst ht heffect halike => ?_
  rcases heffect with ⟨-, rfl, hempty | hfails⟩ | ⟨-, a, d, b, hroutes, rfl⟩
  · have hx2 : x.2 = [] := hx.routes.trans hempty
    exact hx.reads ⟨hst, halike⟩ ⟨rfl, rfl⟩ (Or.inl ⟨hx2, hx2⟩)
  · have hvain : NetCall.Vain fails .delDefault x.1 := hw ▸ hfails
    exact hx.vain ⟨hst, halike⟩ rfl hvain rfl
  · refine Shows.done (y := (x.1, a ++ b)) ?_ ⟨rfl, rfl⟩
      (Or.inr ⟨a, d, b, hx.routes.trans hroutes, rfl⟩)
    exact hx.move hst ht halike ⟨rfl, rfl⟩ hx.up hx.addrs hx.dhclient rfl

theorem wp_ping (hx : s.Shows D x) {host : Ipv4Addr} :
    wp (hostEnv w) (LiveNet.runPing host) (Matched D fails x (.ping host)) s := by
  refine wp_run (c := .ping host) hx.legal fun r t y hst _ heffect halike => ?_
  obtain rfl : y = _ := heffect
  exact hx.reads ⟨hst, halike⟩ rfl rfl

theorem wp_carrierUp (hx : s.Shows D x) :
    wp (hostEnv w) (LiveNet.readCarrierUp i) (Matched D fails x (.carrierUp i)) s := by
  rw [LiveNet.readCarrierUp, wp_bind]
  refine wp_mono wp_readCarrier ?_
  rintro shown t ⟨-, hst⟩
  rw [wp_ite]
  refine ⟨fun _ => hx.reads hst rfl rfl, fun _ => ?_⟩
  refine wp_output (q := .linkShow i) fun out u _ htu => ?_
  cases out with
  | none => exact hx.reads (hst.trans htu) rfl rfl
  | some out => exact hx.reads (hst.trans htu) rfl rfl

/-! ### Addresses -/

theorem addAddr_addrsOf_of_not_mem {n : Net} {c : Ipv4Net} (h : c ∉ n.addrsOf i) :
    (n.addAddr i c).addrsOf i = n.addrsOf i ++ [c] := by
  rw [Net.mem_addrsOf] at h
  rw [Net.addAddr, if_neg h]
  simp [Net.addrsOf]

theorem addAddr_of_mem {n : Net} {c : Ipv4Net} (h : c ∈ n.addrsOf i) : n.addAddr i c = n :=
  if_pos (Net.mem_addrsOf.mp h)

/-- **An address is added, or is there.**  Where the command fails and the address is found,
the prefix itself is there, or the call is in vain. -/
theorem wp_addAddr (hnet : ∀ n : Ipv4Net, isNet n.display.toList = true) (hw : w.fails = fails)
    (hx : s.Shows D x) {n : Ipv4Net} :
    wp (hostEnv w) (LiveNet.runAddAddr isNet i n.display) (Matched D fails x (.addAddr i n)) s := by
  rw [LiveNet.runAddAddr, wp_bind]
  refine wp_run (c := .addrAdd n i) hx.legal fun r t y hst ht heffect halike => ?_
  rw [wp_ret]
  rcases heffect with ⟨rfl, -, hnew, rfl⟩ | ⟨herr, rfl, hheld⟩
  · refine Shows.done (y := (x.1.addAddr i n, x.2)) ?_ ⟨rfl, rfl⟩ rfl
    refine hx.move hst ht halike ⟨Net.addAddr_ethernets .., Net.addAddr_listError ..⟩
      ((Net.addAddr_up ..).trans hx.up) (fun j => ?_)
      (fun j => by rw [Net.addAddr_dhclient]; exact hx.dhclient j) hx.routes
    show _ = Function.update s.addrs i (s.addrs i ++ [n]) j
    by_cases hj : j = i
    · subst hj
      rw [Function.update_self, ← hx.addrs, addAddr_addrsOf_of_not_mem]
      rw [hx.addrs]
      exact hnew
    · rw [Function.update_of_ne hj, Net.addAddr_addrsOf_of_ne _ _ _ _ hj, hx.addrs]
  · obtain ⟨e, rfl⟩ := isErr_iff.mp herr
    have hxt := hx.same ⟨hst, halike⟩
    refine wp_bind.mpr (wp_mono (wp_readHasAddr hnet hxt.legal) ?_)
    rintro found u ⟨hfound, htu⟩
    rw [wp_ite]
    refine ⟨fun hf => ?_, fun _ => (hxt.failed htu trivial rfl)⟩
    rcases hheld with hheld | hfails
    · refine hxt.reads htu ⟨rfl, ?_⟩ rfl
      rw [addAddr_of_mem (by rw [hx.addrs]; exact hheld)]
    · -- the address that is found is the preferred one's
      rw [hf] at hfound
      obtain ⟨m, hm, haddr⟩ := (Option.any_eq_true _ _).mp hfound.symm
      have hmem : m ∈ x.1.addrsOf i := hxt.addrs i ▸ Net.firstInetCidr_mem hm
      have hvain : NetCall.Vain fails (.addAddr i n) x.1 := by
        refine ⟨hw ▸ hfails, m, hmem, (of_decide_eq_true haddr).trans ?_⟩
        exact LiveNet.cidrIp_display n
      exact hxt.vain htu rfl hvain rfl

theorem wp_ifaceIpv4Cidr (hnet : ∀ n : Ipv4Net, isNet n.display.toList = true)
    (hx : s.Shows D x) :
    wp (hostEnv w) (LiveNet.readIpv4Cidr isNet i)
      (Matched D fails x (.ifaceIpv4Cidr i)) s := by
  have hread : ∀ o : Option Ipv4Net,
      (o.map fun n => n.display.toList).bind Ipv4Net.ofDisplay = o := by
    intro o
    cases o with
    | none => rfl
    | some n => rw [Option.map_some, Option.bind_some, Ipv4Net.ofDisplay_display]
  refine wp_bind.mpr (wp_mono (wp_readCidr hnet hx.legal) ?_)
  rintro r t ⟨rfl, hst⟩
  exact hx.reads hst ⟨by rw [hread, hx.addrs], rfl⟩ rfl

theorem Shows.isLocal (hx : s.Shows D x) {ip : Ipv4Addr} :
    x.1.isLocal ip = true ↔ ∃ i, ∃ n ∈ s.addrs i, n.addr = ip := by
  rw [Net.isLocal, List.any_eq_true]
  simp only [decide_eq_true_eq, ← hx.addrs, Net.mem_addrsOf]
  exact ⟨fun ⟨a, ha, hip⟩ => ⟨a.1, a.2, ha, hip⟩, fun ⟨i, n, hn, hip⟩ => ⟨(i, n), hn, hip⟩⟩

/-! ### dhclient -/

/-- The dhclient of an interface is told by its pidfile. -/
theorem Shows.setDhclient (hx : s.Shows D x) (hst : s.Steady t) (ht : t.Legal)
    (hbut : s.tables.AlikeBut (D.dhclientPidfile i) t.tables) :
    t.Shows D (x.1.setDhclient i (t.dhclient (D.dhclientPidfile i)), x.2) := by
  refine hx.move hst ht (.refl _) ⟨rfl, rfl⟩ (hx.up.trans hbut.up.symm)
    (fun j => (hx.addrs j).trans (congrFun hbut.addrs j).symm) (fun j => ?_)
    (hx.routes.trans hbut.routes.symm)
  show Function.update x.1.dhclient i (t.dhclient (D.dhclientPidfile i)) j = _
  by_cases hj : j = i
  · subst hj
    exact Function.update_self ..
  · rw [Function.update_of_ne hj, hx.dhclient]
    exact (hbut.dhclient _ fun h => hj (D.dhclientPidfile_inj.mp h)).symm

theorem wp_startDhclient (hx : s.Shows D x) :
    wp (hostEnv w) (LiveNet.runDhclient D i) (Matched D fails x (.startDhclient i)) s := by
  have hlook : ∀ {u : Kernel} {path : String} {k : Except Error Unit → Prog HostSig _},
      s.Same u → (∀ v, s.Same v →
        wp (hostEnv w) (k (.ok ())) (Matched D fails x (.startDhclient i)) v) →
      (∀ e, k (.error e) = Pure.pure (.error e)) →
      wp (hostEnv w) (.call (.createDirAll path) k) (Matched D fails x (.startDhclient i)) u := by
    intro u path k hsu hok herr
    refine wp_look (fun _ _ h => h) fun r v _ huv => ?_
    cases r with
    | ok _ => exact hok v (hsu.trans huv)
    | error e =>
      rw [herr]
      exact hx.failed (hsu.trans huv) trivial rfl
  rw [LiveNet.runDhclient, wp_bind]
  refine wp_look (fun _ _ h => h) fun isFile t _ hst => ?_
  rw [wp_ret, wp_ite]
  refine ⟨fun _ => ?_, fun _ => hx.failed hst trivial rfl⟩
  refine hlook hst (fun u hsu => hlook hsu (fun v hsv => ?_) fun _ => rfl) fun _ => rfl
  have hxv := hx.same hsv
  refine wp_run (c := .dhclient _ _ i) hxv.legal fun r z y hvz hz heffect halike => ?_
  rcases heffect with ⟨pid, text, cmdline, rfl, hpid, -, hothers, hm, rfl⟩ | ⟨-, herr, rfl⟩
  · have hrun : z.dhclient (D.dhclientPidfile i) = true :=
      (congrFun halike.dhclient _).trans (Tables.started_dhclient hpid hm)
    have hz' := hxv.setDhclient hvz hz ((Tables.AlikeBut.started hothers).alike halike)
    rw [hrun] at hz'
    exact Shows.done hz' ⟨rfl, rfl⟩ rfl
  · exact hxv.failed ⟨hvz, halike⟩ trivial herr

/-- The functions of `pidfile` on a machine. -/
abbrev onPidfile (w : Weather) (path : String) : Env PidSig Kernel :=
  (hostEnv w).inlined (LiveNet.pidAt path)

section Pidfile
variable {path bin : String}

theorem onPidfile_iff {c : PidCall} {r : c.Ret} :
    onPidfile w path c s r t ↔ hostEnv w (.pid path c) s r t := exec_call

theorem onPidfile_same {c : PidCall} {r : c.Ret}
    (h : onPidfile w path c s r t)
    (hc : ∀ p, PidTable.Effect id c (s.tables.pidTable path) r p → p = s.tables.pidTable path) :
    s.Same t ∧ PidTable.Effect id c (s.tables.pidTable path) r (s.tables.pidTable path) := by
  obtain ⟨hst, y, ⟨p, hp, rfl⟩, halike⟩ := onPidfile_iff.mp h
  obtain rfl := hc p hp
  rw [Tables.withPid_self] at halike
  exact ⟨⟨hst, halike⟩, hp⟩

/-- They read what is there. -/
theorem reads_onPidfile : PidTable.Reads id (onPidfile w path)
    (fun s => s.tables.pidTable path) Eq Same fun _ _ => True where
  before s := rfl
  after s := .refl s
  pidfile s r t h := by
    obtain ⟨hst, hE⟩ := onPidfile_same h fun _ h => h.1
    exact ⟨s, rfl, hst, hE.2⟩
  cmdline pid s r t h := by
    obtain ⟨hst, hE⟩ := onPidfile_same h fun _ h => h.1
    exact ⟨s, rfl, hst, trivial, hE.2⟩

/-- **A check** tells whether the dhclient runs. -/
theorem wp_isAliveIn :
    wp (onPidfile w path) (isAliveIn dhclientBin)
      (fun r t => r = s.dhclient path ∧ s.Same t) s := by
  refine wp_mono reads_onPidfile.wp_isAliveIn ?_
  rintro alive t ⟨_, u, _, rfl, hsu, rfl, hut, -, halive⟩
  refine ⟨?_, hsu.trans hut⟩
  have hnamed : (s.tables.pidTable path).named = (u.tables.pidTable path).named := by
    unfold PidTable.named Tables.pidTable
    rw [hsu.2.pidfiles]
  rw [Bool.eq_iff_iff, halive, hnamed]
  show _ ↔ s.tables.dhclient path = true
  rw [← congrFun hsu.2.dhclient path]
  exact Tables.dhclient_iff.symm

/-- What is known during a stop of the dhclient that has `pid`. -/
structure Stopping (path : String) (s : Kernel) (pid : Int) (t : Kernel) : Prop where
  /-- The devices and the other dhclients are as before. -/
  steady : s.Steady t
  legal : t.Legal
  others : s.tables.AlikeBut path t.tables
  /-- The pidfile names it. -/
  named : (t.tables.pidTable path).named = some pid

/-- What a stop leaves. -/
structure Stopped (path : String) (s t : Kernel) : Prop where
  /-- The devices and the other dhclients are as before. -/
  steady : s.Steady t
  legal : t.Legal
  others : s.tables.AlikeBut path t.tables
  /-- The pidfile tells of no dhclient. -/
  dead : t.dhclient path = false

theorem Same.named (h : s.Same t) :
    (t.tables.pidTable path).named = (s.tables.pidTable path).named := by
  unfold PidTable.named Tables.pidTable
  rw [h.2.pidfiles]

theorem Stopping.same {pid : Int} (h : Stopping path s pid t) {u : Kernel} (htu : t.Same u) :
    Stopping path s pid u :=
  ⟨h.steady.trans htu.1, htu.legal h.legal, h.others.alike htu.2, htu.named.trans h.named⟩

/-- A signal to what the pidfile names ends it, or leaves all as it is; SIGKILL ends it. -/
theorem Stopping.kill {pid : Int} {sig : PidSignal} {r : Except Error Unit} {u : Kernel}
    (h : Stopping path s pid t) (halive : t.dhclient path = true)
    (hkill : onPidfile w path (.kill pid sig) t r u) :
    Stopping path s pid u ∧ (sig = .kill → Stopped path s u) := by
  have hlegal := h.legal.step (onPidfile_iff.mp hkill)
  obtain ⟨htu, y, ⟨p, hp, rfl⟩, halike⟩ := onPidfile_iff.mp hkill
  have hothers := (h.others.trans (Tables.AlikeBut.of_pid h.legal.unshared hp fun q _ hq => by
    cases hq
    exact ⟨halive, h.named⟩)).alike halike
  refine ⟨⟨h.steady.trans htu, hlegal, hothers, ?_⟩, ?_⟩
  · have hu : u.tables.pidfiles path = t.tables.pidfiles path := by
      rw [halike.pidfiles]
      rcases hp with rfl | ⟨-, rfl⟩ <;> exact Function.update_self ..
    rw [← h.named]
    unfold PidTable.named Tables.pidTable
    rw [hu]
  · rintro rfl
    obtain rfl := hp.resolve_right fun h => nomatch h.1
    refine ⟨h.steady.trans htu, hlegal, hothers, ?_⟩
    show u.tables.dhclient path = false
    rw [halike.dhclient, Tables.dhclient, Tables.withPid_pidTable, ← Bool.not_eq_true,
      PidTable.alive_exit_iff]
    exact fun hu => hu.1 h.named

theorem stops_onPidfile : PidTable.Stops (onPidfile w path) dhclientBin (Stopping path s)
    (fun pid t => Stopping path s pid t ∧ t.dhclient path = true) (Stopped path s)
    (Stopped path s) where
  check pid t ht := by
    refine wp_mono wp_isAliveIn ?_
    rintro alive u ⟨halive, htu⟩
    have hu := ht.same htu
    have hbit : u.dhclient path = t.dhclient path := congrFun htu.2.dhclient path
    cases alive with
    | true => exact ⟨hu, hbit.trans halive.symm⟩
    | false => exact ⟨hu.steady, hu.legal, hu.others, hbit.trans halive.symm⟩
  kill pid sig t r u ht h := ht.1.kill ht.2 h
  sleep pid d t r u ht h := ht.same (onPidfile_same h fun _ h => h).1
  remove t r u ht h := by
    have hlegal := ht.legal.step (onPidfile_iff.mp h)
    obtain ⟨htu, y, ⟨p, hp, rfl⟩, halike⟩ := onPidfile_iff.mp h
    have hothers := Tables.AlikeBut.of_pid ht.legal.unshared hp fun q sig hq => nomatch hq
    refine ⟨ht.steady.trans htu, hlegal, (ht.others.trans hothers).alike halike, ?_⟩
    show u.tables.dhclient path = false
    rw [halike.dhclient, Tables.dhclient, Tables.withPid_pidTable]
    rcases hp with ⟨-, rfl⟩ | ⟨-, rfl⟩
    · exact PidTable.alive_of_none _ rfl
    · exact ht.dead

/-- **A stop** ends the dhclient, and no other. -/
theorem wp_stopIn {wait : Duration} (hs : s.Legal) :
    wp (onPidfile w path) (stopIn dhclientBin wait)
      (fun r t => r = .ok () ∧ Stopped path s t) s := by
  refine stops_onPidfile.wp_stopIn (wp_mono reads_onPidfile.wp_readPid ?_)
  rintro _ t ⟨_, rfl, hst, rfl⟩
  have hothers : s.tables.AlikeBut path t.tables := (Tables.AlikeBut.refl _).alike hst.2
  refine ⟨fun hnone => ⟨hst.1, hst.legal hs, hothers, ?_⟩, fun pid hpid =>
    ⟨hst.1, hst.legal hs, hothers, hst.named.trans hpid⟩⟩
  show t.tables.dhclient path = false
  rw [hst.2.dhclient, Tables.dhclient, PidTable.alive, hnone]
  rfl

end Pidfile

theorem wp_stopDhclient (hx : s.Shows D x) :
    wp (hostEnv w) (LiveNet.pidStop (D.dhclientPidfile i) dhclientBin)
      (Matched D fails x (.stopDhclient i)) s := by
  refine wp_inline.mpr (wp_mono (wp_stopIn hx.legal) ?_)
  rintro _ t ⟨rfl, hstop⟩
  have ht := hx.setDhclient hstop.steady hstop.legal hstop.others
  rw [hstop.dead] at ht
  exact Shows.done ht ⟨rfl, rfl⟩ rfl

theorem wp_dhclientRunning (hx : s.Shows D x) :
    wp (hostEnv w) (LiveNet.pidAlive (D.dhclientPidfile i) dhclientBin)
      (Matched D fails x (.dhclientRunning i)) s := by
  refine wp_inline.mpr (wp_mono wp_isAliveIn ?_)
  rintro _ t ⟨rfl, hst⟩
  exact hx.reads hst ⟨(hx.dhclient i).symm, rfl⟩ rfl

/-! ### The wait for a lease -/

theorem leased_of_alike {y z : Tables} {pidfile : String} (h : y.Alike z) :
    y.Leased i pidfile z :=
  ⟨h.up, fun j _ => congrFun h.addrs j, congrArg (Routes.flush i) h.routes, h.pidfiles,
    h.dhclient, fun _ => h⟩

theorem leased_trans {y z z' : Tables} {pidfile : String} (h : y.Leased i pidfile z)
    (h' : z.Leased i pidfile z') : y.Leased i pidfile z' where
  up := h'.up.trans h.up
  addrs j hj := (h'.addrs j hj).trans (h.addrs j hj)
  routes := h'.routes.trans h.routes
  pidfiles := h'.pidfiles.trans h.pidfiles
  dhclient := h'.dhclient.trans h.dhclient
  idle hidle := by
    have hyz := h.idle hidle
    exact hyz.trans (h'.idle ((congrFun hyz.dhclient pidfile).trans hidle))

/-- What a wait may have done so far. -/
structure Waited (i pidfile : String) (s t : Kernel) : Prop where
  /-- The devices are as before. -/
  steady : s.Steady t
  legal : t.Legal
  /-- What has changed is the work of the interface's dhclient. -/
  leased : s.tables.Leased i pidfile t.tables

theorem Waited.same {pidfile : String} (h : s.Waited i pidfile t) {u : Kernel} (htu : t.Same u) :
    s.Waited i pidfile u :=
  ⟨h.steady.trans htu.1, htu.legal h.legal, leased_trans h.leased (leased_of_alike htu.2)⟩

theorem wp_pollIpv4 (hnet : ∀ n : Ipv4Net, isNet n.display.toList = true) {pidfile : String}
    {start n : Nat} {timeout : Duration} {u : Kernel} (hw : w.lease = some (i, pidfile))
    (hu : s.Waited i pidfile u) :
    wp (hostEnv w) (LiveNet.pollIpv4 isNet i start timeout n)
      (fun r t => r = !(t.addrs i).isEmpty ∧ s.Waited i pidfile t) u := by
  have hlast : ∀ {v : Kernel}, s.Waited i pidfile v →
      wp (hostEnv w) (LiveNet.readHasIpv4 isNet i)
        (fun r t => r = !(t.addrs i).isEmpty ∧ s.Waited i pidfile t) v := by
    intro v hv
    refine wp_mono (wp_readHasIpv4 hnet hv.legal) ?_
    rintro r t ⟨rfl, hvt⟩
    exact ⟨congrArg (!·.isEmpty) (congrFun hvt.2.addrs i).symm, hv.same hvt⟩
  induction n generalizing u with
  | zero => exact hlast hu
  | succ n ih =>
    rw [LiveNet.pollIpv4, wp_bind]
    refine wp_look (fun _ _ h => h) fun now v _ huv => ?_
    rw [wp_ret, wp_ite]
    refine ⟨fun _ => ?_, fun _ => hlast (hu.same huv)⟩
    rw [wp_bind]
    refine wp_mono (hlast (hu.same huv)) ?_
    rintro has t ⟨rfl, ht⟩
    rw [wp_ite]
    refine ⟨fun h => ⟨h.symm, ht⟩, fun _ => ?_⟩
    rw [wp_bind]
    intro _ z hsleep
    have hz := ht.legal.step hsleep
    obtain ⟨htz, y, heffect, halike⟩ := hsleep
    refine ih ⟨ht.steady.trans htz, hz, leased_trans ht.leased ?_⟩
    -- during the sleep dhclient may act
    rcases heffect with rfl | ⟨j, pidfile', hlease, -, h⟩
    · exact leased_of_alike halike
    · obtain ⟨rfl, rfl⟩ := Prod.mk.inj (Option.some.inj (hw.symm.trans hlease))
      exact leased_trans h (leased_of_alike halike)

theorem wp_waitIpv4 (hnet : ∀ n : Ipv4Net, isNet n.display.toList = true) {timeout : Duration}
    (hw : w.lease = some (i, D.dhclientPidfile i)) (hx : s.Shows D x) :
    wp (hostEnv w) (LiveNet.runWaitIpv4 isNet i timeout)
      (Matched D fails x (.waitIpv4 i timeout)) s := by
  rw [LiveNet.runWaitIpv4, wp_bind]
  refine wp_look (fun _ _ h => h) fun start t _ hst => ?_
  have hwaited : s.Waited i (D.dhclientPidfile i) t :=
    ⟨hst.1, hst.legal hx.legal, leased_of_alike hst.2⟩
  rw [wp_ret]
  refine wp_mono (wp_pollIpv4 hnet hw hwaited) ?_
  rintro r u ⟨rfl, hsu, hu, hleased⟩
  have hidle : x.1.dhclient i = false → s.tables.Alike u.tables := fun hd =>
    hleased.idle ((hx.dhclient i).symm.trans hd)
  refine Shows.done (y := (x.1.readdress i (u.addrs i), u.routes)) ?_
    ⟨u.addrs i, fun hd => ?_, rfl, rfl⟩ ⟨?_, fun hd => ?_⟩
  · refine hx.move hsu hu (.refl _) ⟨rfl, rfl⟩ (hx.up.trans hleased.up.symm) (fun j => ?_)
      (fun j => (hx.dhclient j).trans (congrFun hleased.dhclient _).symm) rfl
    by_cases hj : j = i
    · subst hj
      rw [Net.readdress_addrsOf, if_pos rfl]
      rfl
    · rw [Net.readdress_addrsOf, if_neg hj, hx.addrs]
      exact (hleased.addrs j hj).symm
  · rw [hx.addrs]
    exact congrFun (hidle hd).addrs i
  · rw [hx.routes]
    exact hleased.routes
  · rw [hx.routes]
    exact (hidle hd).routes

/-! ### All of them -/

theorem wp_method (hnet : ∀ n : Ipv4Net, isNet n.display.toList = true) {c : NetCall}
    (hx : s.Shows D x) :
    wp (hostEnv (D.weather fails c)) (LiveNet.method isNet D c) (Matched D fails x c) s := by
  cases c with
  | listEthernet =>
    refine wp_mono wp_readListing ?_
    rintro r t ⟨rfl, hst⟩
    exact hx.reads hst ⟨hx.listing.symm, rfl⟩ rfl
  | isPhysicalEthernet name =>
    refine wp_mono wp_readPhysical ?_
    rintro r t ⟨rfl, hst⟩
    exact hx.reads hst ⟨hx.physical name, rfl⟩ rfl
  | resolveIface configured =>
    refine wp_mono (wp_resolve hx rfl) ?_
    rintro r t ⟨y, hy, hroutes, ht⟩
    exact Shows.done ht hy hroutes
  | resolveIfacePassive configured =>
    refine wp_mono (wp_resolve hx rfl) ?_
    rintro r t ⟨y, hy, hroutes, ht⟩
    exact Shows.done ht hy hroutes
  | bringUp iface => exact wp_bringUp rfl hx
  | flushAddr iface => exact wp_flushAddr rfl hx
  | addAddr iface cidr => exact wp_addAddr hnet rfl hx
  | ifaceHasIpv4 iface =>
    refine wp_mono (wp_readHasIpv4 hnet hx.legal) ?_
    rintro r t ⟨rfl, hst⟩
    exact hx.reads hst ⟨by rw [hx.addrs, isSome_firstInetCidr], rfl⟩ rfl
  | ifaceHasAddr iface ip =>
    refine wp_mono (wp_readHasAddr hnet hx.legal) ?_
    rintro r t ⟨rfl, hst⟩
    exact hx.reads hst ⟨by rw [hx.addrs], rfl⟩ rfl
  | ifaceIpv4Cidr iface => exact wp_ifaceIpv4Cidr hnet hx
  | carrierUp iface => exact wp_carrierUp hx
  | linkIsUp iface =>
    refine wp_mono wp_readLinkIsUp ?_
    rintro r t ⟨rfl, hst⟩
    exact hx.reads hst ⟨by rw [hx.up], rfl⟩ rfl
  | setDown iface => exact wp_setDown rfl hx
  | ipv4AddrIsLocal ip =>
    refine wp_mono (wp_readAddrIsLocal hx.legal) ?_
    rintro r t ⟨hr, hst⟩
    exact hx.reads hst ⟨Bool.eq_iff_iff.mpr (hr.trans hx.isLocal.symm), rfl⟩ rfl
  | ping host => exact wp_ping hx
  | stopDhclient iface => exact wp_stopDhclient hx
  | startDhclient iface => exact wp_startDhclient hx
  | dhclientRunning iface => exact wp_dhclientRunning hx
  | waitIpv4 iface timeout => exact wp_waitIpv4 hnet rfl hx
  | replaceDefaultVia gw iface => exact wp_replaceDefaultVia rfl hx
  | delDefault => exact wp_delDefault rfl hx

end Methods

/-! ## The network of a machine -/

/-- The network with the default routes, as the abstract layer has it. -/
def net (D : DataDir) (s : Kernel) : Net × Routes :=
  ({ ethernets := s.cls.listEthernet
     listError := s.dirError
     up := s.up
     addrs := s.cls.entries.flatMap fun i => (s.addrs i).map (i, ·)
     dhclient := fun i => s.dhclient (D.dhclientPidfile i) }, s.routes)

theorem filter_flatMap_addrs (f : String → List Ipv4Net) {l : List String} (hl : l.Nodup) :
    ((l.flatMap fun j => (f j).map (j, ·)).filter (·.1 = i)).map (·.2) =
      if i ∈ l then f i else [] := by
  induction l with
  | nil => rfl
  | cons j l ih =>
    rw [List.nodup_cons] at hl
    rw [List.flatMap_cons, List.filter_append, List.map_append, ih hl.2]
    by_cases hj : j = i
    · subst hj
      simp [hl.1, List.filter_map, Function.comp_def]
    · simp [hj, Ne.symm hj, List.filter_map, Function.comp_def]

/-- **Every legal machine shows one.** -/
theorem shows_net (hs : s.Legal) : s.Shows D (s.net D) := by
  refine ⟨hs, rfl, rfl, rfl, fun i => ?_, fun i => rfl, rfl⟩
  refine (filter_flatMap_addrs s.addrs s.cls.nodup).trans ?_
  by_cases hi : i ∈ s.cls.entries
  · rw [if_pos hi]
  · rw [if_neg hi]
    refine (List.eq_nil_iff_forall_not_mem.mpr fun n hn => hi ?_).symm
    exact s.cls.complete i (hs.placed i n hn)

end Kernel

/-- **`LiveNet` refines the abstract network.**  That a prefix as it is printed parses is
asked of the parser. -/
theorem liveNet_simulates (isNet : List Char → Bool)
    (hnet : ∀ n : Ipv4Net, isNet n.display.toList = true) (D : DataDir) (fails : Cmd → Prop) :
    Simulates (liveEnv isNet D fails)
      (Net.routedSlack (NetCall.MayFail fails) (NetCall.Vain fails)) (Kernel.Shows D) := by
  intro c s r t x hx hexec
  exact wp_iff.mp (Kernel.wp_method hnet hx) r t hexec

end Micronet

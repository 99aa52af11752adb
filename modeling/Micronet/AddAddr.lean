import Micronet.Listing
import Micronet.NetOps

/-!
# Adding an address

`ip addr add` fails for an address that is already there, and `add_addr` then asks whether it
is.  The answer comes from the one prefix that is preferred in the listing, so an address
that stands behind another one is not seen.
-/
namespace Micronet
open Interaction Prog RustText

/-- The `ip` commands of `add_addr`. -/
inductive IpCall
  /-- `ip addr add <cidr> dev <iface>`. -/
  | addrAdd (cidr : List Char) (iface : IfName)
  /-- What `ip -4 -o addr show dev <iface>` writes, if it can be run. -/
  | addrShow (iface : IfName)

abbrev IpCall.Ret : IpCall → Type
  | .addrAdd _ _ => Except Error Unit
  | .addrShow _ => Option (List Char)

abbrev IpSig : Signature := ⟨IpCall, IpCall.Ret⟩

namespace LiveNet

abbrev ip (c : IpCall) : Prog IpSig c.Ret := call (S := IpSig) c

variable (isNet : List Char → Bool)

def ifaceIpv4Cidr (iface : IfName) : Prog IpSig (Option (List Char)) := do
  let out ← ip (.addrShow iface)
  return out.bind (parseFirstInetCidr isNet)

def ifaceHasAddr (iface : IfName) (addr : Ipv4Addr) : Prog IpSig Bool := do
  let cidr ← ifaceIpv4Cidr isNet iface
  return cidr.any fun c => (addr.display.toList ++ ['/']).isPrefixOf c

def cidrIp (cidr : List Char) : Ipv4Addr := (cidrIpv4 cidr).getD ⟨0, 0, 0, 0⟩

def addAddr (iface : IfName) (cidr : List Char) : Prog IpSig (Except Error Unit) := do
  match ← ip (.addrAdd cidr iface) with
  | .ok () => return .ok ()
  | .error e =>
    if ← ifaceHasAddr isNet iface (cidrIp cidr) then return .ok () else return .error e

end LiveNet

/-! ## The commands -/

/-- The addresses of each interface, in the order they are listed. -/
abbrev Addrs : Type := IfName → List Ipv4Net

/-- An address with its prefix is not added twice, and the listing has them all. -/
def ipEnv : Env IpSig Addrs
  | .addrAdd cidr iface, s, r, t =>
    (∃ n ∈ s iface, n.display.toList = cidr) → isErr r = true ∧ t = s
  | .addrShow iface, s, r, t =>
    (∃ es : List Entry, (∀ e ∈ es, e.name = iface) ∧ es.map Entry.net = s iface ∧
      r = some (listing es)) ∧ t = s

/-- `n` is the first outside `169.254.0.0/16`, or the first when all are inside. -/
def Preferred (l : List Ipv4Net) (n : Ipv4Net) : Prop :=
  ∃ before after, l = before ++ n :: after ∧ (∀ m ∈ before, m.addr.isLinkLocal = true) ∧
    (n.addr.isLinkLocal = true → before = [] ∧ ∀ m ∈ after, m.addr.isLinkLocal = true)

theorem firstInetCidr_eq_some {l : List Ipv4Net} {n : Ipv4Net} :
    firstInetCidr l = some n ↔ Preferred l n := by
  rw [firstInetCidr, Option.or_eq_some_iff]
  constructor
  · rintro (hfind | ⟨hfind, hhead⟩)
    · obtain ⟨hn, before, after, rfl, hbefore⟩ := List.find?_eq_some_iff_append.mp hfind
      refine ⟨before, after, rfl, fun m hm => by simpa using hbefore m hm, fun hlocal => ?_⟩
      rw [hlocal] at hn
      cases hn
    · rw [List.find?_eq_none] at hfind
      obtain ⟨after, rfl⟩ := List.head?_eq_some_iff.mp hhead
      exact ⟨[], after, rfl, by simp, fun _ => ⟨rfl, fun m hm => by
        simpa using hfind m (List.mem_cons_of_mem n hm)⟩⟩
  · rintro ⟨before, after, rfl, hbefore, hlocal⟩
    by_cases hn : n.addr.isLinkLocal = true
    · obtain ⟨rfl, hafter⟩ := hlocal hn
      refine Or.inr ⟨List.find?_eq_none.mpr fun m hm => ?_, rfl⟩
      rcases List.mem_cons.mp hm with rfl | hm
      · simp [hn]
      · simp [hafter m hm]
    · refine Or.inl (List.find?_eq_some_iff_append.mpr ⟨by simp [hn], before, after, rfl, ?_⟩)
      exact fun m hm => by simp [hbefore m hm]

/-! ## What is seen of the addresses -/

namespace LiveNet
variable {isNet : List Char → Bool} {iface : IfName} {addr : Ipv4Addr} {s t : Addrs} {b : Bool}

/-- The address is the preferred one's, under a name that is read. -/
def Seen (iface : IfName) (l : List Ipv4Net) (addr : Ipv4Addr) : Prop :=
  ¬ iface.EndsInet ∧ ∃ n, Preferred l n ∧ n.addr = addr

theorem visible_of_name {es : List Entry} (h : ∀ e ∈ es, e.name = iface) :
    visible es = if iface.EndsInet then [] else es.map Entry.net := by
  by_cases hend : iface.EndsInet
  · rw [if_pos hend, visible, List.filter_eq_nil_iff.mpr fun e he => by simp [h e he, hend]]
    rfl
  · rw [if_neg hend, visible, List.filter_eq_self.mpr fun e he => by simp [h e he, hend]]

/-- What the listing of one interface is asked. -/
theorem any_parseFirstInetCidr (hnet : ∀ n : Ipv4Net, isNet n.display.toList = true)
    {es : List Entry} (h : ∀ e ∈ es, e.name = iface) :
    ((parseFirstInetCidr isNet (listing es)).any fun c =>
        (addr.display.toList ++ ['/']).isPrefixOf c) = true ↔
      Seen iface (es.map Entry.net) addr := by
  rw [parseFirstInetCidr_listing hnet, Option.any_map, Option.any_eq_true]
  simp only [prefix_display, visible_of_name h, Seen, ← firstInetCidr_eq_some]
  by_cases hend : iface.EndsInet
  · simp [hend, firstInetCidr]
  · simp [hend]

/-- Any addresses can be listed. -/
theorem exists_entries (iface : IfName) (l : List Ipv4Net) :
    ∃ es : List Entry, (∀ e ∈ es, e.name = iface) ∧ es.map Entry.net = l := by
  refine ⟨l.map fun n => ⟨1, iface, n, [], [], by simp⟩, fun e he => ?_, ?_⟩
  · obtain ⟨n, -, rfl⟩ := List.mem_map.mp he
    rfl
  · rw [List.map_map]
    exact List.map_id l

/-- **What `iface_has_addr` answers**: whether the address is seen. -/
theorem exec_ifaceHasAddr (hnet : ∀ n : Ipv4Net, isNet n.display.toList = true) :
    (ifaceHasAddr isNet iface addr).Exec ipEnv s b t ↔
      (b = true ↔ Seen iface (s iface) addr) ∧ t = s := by
  have hshow : ∀ {out : Option (List Char)} {u : Addrs},
      (ip (.addrShow iface)).Exec ipEnv s out u ↔
        (∃ es : List Entry, (∀ e ∈ es, e.name = iface) ∧ es.map Entry.net = s iface ∧
          out = some (listing es)) ∧ u = s := exec_call
  simp only [ifaceHasAddr, ifaceIpv4Cidr, exec_bind, exec_pure, hshow]
  constructor
  · rintro ⟨cidr, u, ⟨out, v, ⟨⟨es, hname, hmap, rfl⟩, rfl⟩, rfl, rfl⟩, rfl, rfl⟩
    refine ⟨?_, rfl⟩
    rw [← hmap]
    exact any_parseFirstInetCidr hnet hname
  · rintro ⟨hb, rfl⟩
    obtain ⟨es, hname, hmap⟩ := exists_entries iface (t iface)
    refine ⟨_, t, ⟨_, t, ⟨⟨es, hname, hmap, rfl⟩, rfl⟩, rfl, rfl⟩, ?_, rfl⟩
    rw [Bool.eq_iff_iff, hb, ← hmap]
    exact (any_parseFirstInetCidr hnet hname).symm

theorem cidrIp_display (n : Ipv4Net) : cidrIp n.display.toList = n.addr := by
  rw [cidrIp, cidrIpv4, Ipv4Net.splitOn_display, List.head?_cons, Option.bind_some,
    Ipv4Addr.parse_eq_some.mpr rfl, Option.getD_some]

/-- **What `add_addr` returns** for an address that is there: whether it is seen. -/
theorem exec_addAddr (hnet : ∀ n : Ipv4Net, isNet n.display.toList = true) {n : Ipv4Net}
    (hn : n ∈ s iface) {r : Except Error Unit} :
    (addAddr isNet iface n.display.toList).Exec ipEnv s r t ↔
      (r = .ok () ↔ Seen iface (s iface) n.addr) ∧ t = s := by
  -- `ip addr add` fails, for the address is there
  have hadd : ∀ {out : Except Error Unit} {u : Addrs},
      (ip (.addrAdd n.display.toList iface)).Exec ipEnv s out u ↔ isErr out = true ∧ u = s := by
    intro out u
    rw [exec_call]
    exact ⟨fun h => h ⟨n, hn, rfl⟩, fun h _ => h⟩
  have hanswer : ∀ {b : Bool} {e : Error} {u : Addrs},
      (if b then Pure.pure (.ok ()) else Pure.pure (.error e) :
        Prog IpSig (Except Error Unit)).Exec ipEnv u r t ↔
      r = (if b then .ok () else .error e) ∧ t = u := by
    intro b e u
    cases b <;> exact Iff.rfl
  rw [addAddr, exec_bind]
  constructor
  · rintro ⟨out, u, hout, hrest⟩
    obtain ⟨herr, rfl⟩ := hadd.mp hout
    obtain ⟨e, rfl⟩ := isErr_iff.mp herr
    simp only [exec_bind, exec_ifaceHasAddr hnet, cidrIp_display, hanswer] at hrest
    obtain ⟨b, v, ⟨hb, rfl⟩, rfl, rfl⟩ := hrest
    refine ⟨?_, rfl⟩
    rw [← hb]
    cases b <;> simp
  · rintro ⟨hr, rfl⟩
    cases r with
    | ok _ =>
      refine ⟨.error .noEthernet, t, hadd.mpr ⟨rfl, rfl⟩, ?_⟩
      simp only [exec_bind, exec_ifaceHasAddr hnet, cidrIp_display, hanswer]
      exact ⟨true, t, ⟨iff_of_true rfl (hr.mp rfl), rfl⟩, rfl, rfl⟩
    | error e =>
      refine ⟨.error e, t, hadd.mpr ⟨rfl, rfl⟩, ?_⟩
      simp only [exec_bind, exec_ifaceHasAddr hnet, cidrIp_display, hanswer]
      have hseen : ¬ Seen iface (t iface) n.addr := fun h => by cases hr.mpr h
      exact ⟨false, t, ⟨iff_of_false Bool.false_ne_true hseen, rfl⟩, rfl, rfl⟩

/-- **An address that is held** is told to be there exactly if it is, and is added again
without an error and without a change. -/
def AddsHeld (isNet : List Char → Bool) (iface : IfName) (l : List Ipv4Net) (addr : Ipv4Addr) :
    Prop :=
  ∀ s : Addrs, s iface = l →
    (∀ b t, (ifaceHasAddr isNet iface addr).Exec ipEnv s b t →
      (b = true ↔ ∃ n ∈ l, n.addr = addr) ∧ t = s) ∧
    (.slash24 addr ∈ l → ∀ r t,
      (addAddr isNet iface (Ipv4Net.slash24 addr).display.toList).Exec ipEnv s r t →
        r = .ok () ∧ t = s)

theorem Seen.exists_mem {l : List Ipv4Net} (h : Seen iface l addr) : ∃ n ∈ l, n.addr = addr := by
  obtain ⟨-, n, ⟨before, after, rfl, -⟩, hn⟩ := h
  exact ⟨n, by simp, hn⟩

theorem AddsHeld.seen {l : List Ipv4Net} (hnet : ∀ n : Ipv4Net, isNet n.display.toList = true)
    (h : AddsHeld isNet iface l addr) (hmem : ∃ n ∈ l, n.addr = addr) : Seen iface l addr := by
  obtain ⟨hhas, -⟩ := h (fun _ => l) rfl
  by_contra hseen
  have hexec : (ifaceHasAddr isNet iface addr).Exec ipEnv (fun _ => l) false (fun _ => l) :=
    (exec_ifaceHasAddr hnet).mpr ⟨iff_of_false Bool.false_ne_true hseen, rfl⟩
  have hb := (hhas false _ hexec).1.mpr hmem
  cases hb

/-- **An address that is held is added again** exactly if it is not held or it is seen.  The other
addresses of the interface are any, in any order.  That a prefix as it is printed parses (`hnet`)
is the one thing asked of the parser. -/
theorem addsHeld_iff (isNet : List Char → Bool)
    (hnet : ∀ n : Ipv4Net, isNet n.display.toList = true) (iface : IfName) (l : List Ipv4Net)
    (addr : Ipv4Addr) :
    AddsHeld isNet iface l addr ↔ ((∃ n ∈ l, n.addr = addr) → Seen iface l addr) := by
  refine ⟨fun h => h.seen hnet, ?_⟩
  rintro hseen s rfl
  constructor
  · intro b t hexec
    obtain ⟨hb, rfl⟩ := (exec_ifaceHasAddr hnet).mp hexec
    exact ⟨hb.trans ⟨Seen.exists_mem, hseen⟩, rfl⟩
  · intro hmem r t hexec
    obtain ⟨hr, rfl⟩ := (exec_addAddr hnet hmem).mp hexec
    exact ⟨hr.mpr (hseen ⟨_, hmem, rfl⟩), rfl⟩

/-- The one address that is not link-local, behind one that is. -/
theorem preferred_addsHeld :
    ∃ eth0 : IfName, eth0.chars = "eth0".toList ∧
      AddsHeld Ipv4Net.isDisplay eth0
        [.slash24 ⟨169, 254, 1, 1⟩, .slash24 ⟨10, 0, 0, 1⟩] ⟨10, 0, 0, 1⟩ := by
  refine ⟨⟨"eth0".toList, by decide, by decide, by simp, by decide⟩, rfl, ?_⟩
  refine (addsHeld_iff _ Ipv4Net.isDisplay_display _ _ _).mpr fun _ => ⟨by decide, ?_⟩
  exact ⟨.slash24 ⟨10, 0, 0, 1⟩,
    ⟨[.slash24 ⟨169, 254, 1, 1⟩], [], rfl, by decide, by decide⟩, rfl⟩

/-- The second of two addresses is not told to be there, and adding it again is an error. -/
theorem second_not_addsHeld :
    ∃ eth0 : IfName, eth0.chars = "eth0".toList ∧
      (∀ s : Addrs, s eth0 = [.slash24 ⟨10, 0, 0, 1⟩, .slash24 ⟨10, 0, 0, 2⟩] →
        (ifaceHasAddr Ipv4Net.isDisplay eth0 ⟨10, 0, 0, 2⟩).Exec
          ipEnv s false s ∧
        ∀ e, (addAddr Ipv4Net.isDisplay eth0 "10.0.0.2/24".toList).Exec
          ipEnv s (.error e) s) ∧
      ¬ AddsHeld Ipv4Net.isDisplay eth0
        [.slash24 ⟨10, 0, 0, 1⟩, .slash24 ⟨10, 0, 0, 2⟩] ⟨10, 0, 0, 2⟩ := by
  refine ⟨⟨"eth0".toList, by decide, by decide, by simp, by decide⟩, rfl, ?_⟩
  have hseen : ∀ iface, ¬ Seen iface [.slash24 ⟨10, 0, 0, 1⟩, .slash24 ⟨10, 0, 0, 2⟩]
      ⟨10, 0, 0, 2⟩ := by
    rintro iface ⟨-, n, hn, haddr⟩
    obtain rfl : Ipv4Net.slash24 ⟨10, 0, 0, 1⟩ = n :=
      Option.some.inj (firstInetCidr_eq_some.mpr hn)
    exact absurd haddr (by decide)
  refine ⟨fun s hs => ⟨?_, fun e => ?_⟩, fun h => ?_⟩
  · rw [exec_ifaceHasAddr Ipv4Net.isDisplay_display, hs]
    exact ⟨iff_of_false Bool.false_ne_true (hseen _), rfl⟩
  · have htext : "10.0.0.2/24".toList = (Ipv4Net.slash24 ⟨10, 0, 0, 2⟩).display.toList := by decide
    rw [htext, exec_addAddr Ipv4Net.isDisplay_display (by rw [hs]; simp), hs]
    exact ⟨iff_of_false (fun he => by cases he) (hseen _), rfl⟩
  · exact hseen _ (h.seen Ipv4Net.isDisplay_display ⟨.slash24 ⟨10, 0, 0, 2⟩, by simp, rfl⟩)

end LiveNet
end Micronet

import Mathlib.Algebra.Order.Ring.Nat

/-!
# IPv4 addresses and prefixes

`Ipv4Net` is an address with a prefix length, host bits kept: the value of a CIDR
text `a.b.c.d/n`.  The code passes such texts around and compares them; here the
value is passed and `Ipv4Net.display` is its text.
-/
namespace Micronet

/-- `std::net::Ipv4Addr`, by its octets. -/
structure Ipv4Addr where
  o0 : UInt8
  o1 : UInt8
  o2 : UInt8
  o3 : UInt8
deriving DecidableEq, Repr

namespace Ipv4Addr

/-- The address as a 32-bit number. -/
def toNat (a : Ipv4Addr) : Nat :=
  a.o0.toNat * 2 ^ 24 + a.o1.toNat * 2 ^ 16 + a.o2.toNat * 2 ^ 8 + a.o3.toNat

def ofNat (n : Nat) : Ipv4Addr :=
  ⟨UInt8.ofNat (n / 2 ^ 24), UInt8.ofNat (n / 2 ^ 16), UInt8.ofNat (n / 2 ^ 8), UInt8.ofNat n⟩

def display (a : Ipv4Addr) : String := s!"{a.o0}.{a.o1}.{a.o2}.{a.o3}"

/-- The text starts with `169.254.`. -/
def isLinkLocal (a : Ipv4Addr) : Bool := a.o0 == 169 && a.o1 == 254

end Ipv4Addr

/-- `ipnet::Ipv4Net`: an address and the length of its network prefix. -/
structure Ipv4Net where
  addr : Ipv4Addr
  prefixLen : Nat
  prefixLen_le : prefixLen ≤ 32
deriving DecidableEq, Repr

namespace Ipv4Net

/-- The number of addresses of the network. -/
def size (n : Ipv4Net) : Nat := 2 ^ (32 - n.prefixLen)

/-- The address with its host bits cleared. -/
def network (n : Ipv4Net) : Ipv4Addr := .ofNat (n.addr.toNat / n.size * n.size)

def netmask (n : Ipv4Net) : Ipv4Addr := .ofNat (2 ^ 32 - n.size)

/-- `ip` has the network bits of `n`. -/
def contains (n : Ipv4Net) (ip : Ipv4Addr) : Bool := ip.toNat / n.size == n.addr.toNat / n.size

def display (n : Ipv4Net) : String := s!"{n.addr.display}/{n.prefixLen}"

/-- The prefix length the configuration requires. -/
def slash24 (ip : Ipv4Addr) : Ipv4Net := ⟨ip, 24, by decide⟩

@[simp] theorem slash24_addr (ip : Ipv4Addr) : (slash24 ip).addr = ip := rfl

theorem size_of_24 {n : Ipv4Net} (h : n.prefixLen = 24) : n.size = 256 := by
  simp [size, h]

/-- In a `/24` the network is the first three octets… -/
theorem network_of_24 {n : Ipv4Net} (h : n.prefixLen = 24) :
    n.network = ⟨n.addr.o0, n.addr.o1, n.addr.o2, 0⟩ := by
  have h0 := n.addr.o0.toNat_lt
  have h1 := n.addr.o1.toNat_lt
  have h2 := n.addr.o2.toNat_lt
  have h3 := n.addr.o3.toNat_lt
  rw [network, size_of_24 h, Ipv4Addr.ofNat, Ipv4Addr.toNat]
  congr 1 <;> rw [← UInt8.toNat_inj, UInt8.toNat_ofNat'] <;> simp <;> omega

/-- …and the members are the addresses with these octets. -/
theorem contains_of_24 {n : Ipv4Net} (h : n.prefixLen = 24) (ip : Ipv4Addr) :
    n.contains ip = true ↔ ip.o0 = n.addr.o0 ∧ ip.o1 = n.addr.o1 ∧ ip.o2 = n.addr.o2 := by
  have h1 := n.addr.o1.toNat_lt
  have h2 := n.addr.o2.toNat_lt
  have h3 := n.addr.o3.toNat_lt
  have k1 := ip.o1.toNat_lt
  have k2 := ip.o2.toNat_lt
  have k3 := ip.o3.toNat_lt
  rw [contains, size_of_24 h, beq_iff_eq, Ipv4Addr.toNat, Ipv4Addr.toNat, ← UInt8.toNat_inj,
    ← UInt8.toNat_inj, ← UInt8.toNat_inj]
  omega

end Ipv4Net

/-- `parse_first_inet_cidr` on the addresses of an interface, in the order the
listing has them: the first that is not link-local, else the first. -/
def firstInetCidr (l : List Ipv4Net) : Option Ipv4Net :=
  (l.find? fun n => !n.addr.isLinkLocal).or l.head?

end Micronet

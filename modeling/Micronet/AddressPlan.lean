import Micronet.DhcpConf

/-!
# The address plan

`validate` compares last octets, and the rest of the code works with whole addresses built
from them.  In a `/24` the two agree, so the plan of a valid configuration has no collision.
That an address of the plan may be the network's or the broadcast address is not checked:
`planUsable_iff` says which octets those are.
-/
namespace Micronet

/-- The bits of `a` that are set in `m`. -/
def Ipv4Addr.masked (a m : Ipv4Addr) : Ipv4Addr :=
  ⟨a.o0 &&& m.o0, a.o1 &&& m.o1, a.o2 &&& m.o2, a.o3 &&& m.o3⟩

theorem Ipv4Addr.toNat_host (a b c h : UInt8) :
    toNat ⟨a, b, c, h⟩ = toNat ⟨a, b, c, 0⟩ + h.toNat := by
  simp [toNat]

namespace Ipv4Net
variable {n : Ipv4Net}

/-- The last address of the network. -/
def broadcast (n : Ipv4Net) : Ipv4Addr :=
  .ofNat (n.addr.toNat / n.size * n.size + (n.size - 1))

theorem netmask_of_24 (h : n.prefixLen = 24) : n.netmask = ⟨255, 255, 255, 0⟩ := by
  rw [netmask, size_of_24 h]
  decide

theorem broadcast_of_24 (h : n.prefixLen = 24) :
    n.broadcast = ⟨n.addr.o0, n.addr.o1, n.addr.o2, 255⟩ := by
  have h0 := n.addr.o0.toNat_lt
  have h1 := n.addr.o1.toNat_lt
  have h2 := n.addr.o2.toNat_lt
  have h3 := n.addr.o3.toNat_lt
  rw [broadcast, size_of_24 h, Ipv4Addr.ofNat, Ipv4Addr.toNat]
  congr 1 <;> rw [← UInt8.toNat_inj, UInt8.toNat_ofNat'] <;> simp <;> omega

/-- The netmask tells the members. -/
theorem contains_iff_masked (h : n.prefixLen = 24) (ip : Ipv4Addr) :
    n.contains ip = true ↔ ip.masked n.netmask = n.network := by
  have hand : ∀ o : UInt8, o &&& 255 = o := fun o => UInt8.and_neg_one
  rw [contains_of_24 h, netmask_of_24 h, network_of_24 h, Ipv4Addr.masked, Ipv4Addr.mk.injEq,
    hand, hand, hand]
  simp

end Ipv4Net

/-! ## Hosts of the subnet -/

namespace Config
variable {cfg : Config}

theorem hostAddr_le {a b : UInt8} : (cfg.hostAddr a).toNat ≤ (cfg.hostAddr b).toNat ↔ a ≤ b := by
  rw [hostAddr, hostAddr, Ipv4Addr.toNat_host _ _ _ a, Ipv4Addr.toNat_host _ _ _ b,
    UInt8.le_iff_toNat_le]
  omega

theorem hostAddr_inj {a b : UInt8} : cfg.hostAddr a = cfg.hostAddr b ↔ a = b := by
  simp [hostAddr]

theorem Valid.ip_eq_hostAddr (h : cfg.Valid) : cfg.gateway.ip = cfg.hostAddr cfg.gateway.ip.o3 := by
  obtain ⟨h24, hin, -⟩ := h.gateway
  obtain ⟨e0, e1, e2⟩ := (Ipv4Net.contains_of_24 h24 _).mp hin
  rw [hostAddr, Ipv4Net.network_of_24 h24, ← e0, ← e1, ← e2]

theorem Valid.contains_hostAddr (h : cfg.Valid) (host : UInt8) :
    cfg.gateway.subnet.contains (cfg.hostAddr host) = true := by
  have h24 := h.gateway.1
  rw [Ipv4Net.contains_of_24 h24, hostAddr, Ipv4Net.network_of_24 h24]
  exact ⟨rfl, rfl, rfl⟩

theorem Valid.network_eq (h : cfg.Valid) : cfg.gateway.subnet.network = cfg.hostAddr 0 := by
  rw [hostAddr, Ipv4Net.network_of_24 h.gateway.1]

theorem Valid.broadcast_eq (h : cfg.Valid) : cfg.gateway.subnet.broadcast = cfg.hostAddr 255 := by
  rw [hostAddr, Ipv4Net.network_of_24 h.gateway.1, Ipv4Net.broadcast_of_24 h.gateway.1]

end Config

/-! ## No collision -/

/-- The pool from `start` to `stop` is in order and in the subnet, the mask is the subnet's,
and the two addresses are distinct members outside the pool. -/
structure CollisionFree (net : Ipv4Net) (gateway static start stop mask : Ipv4Addr) : Prop where
  /-- The ends of the pool are in the subnet, and in this order. -/
  start_mem : net.contains start = true
  stop_mem : net.contains stop = true
  start_lt_stop : start.toNat < stop.toNat
  /-- The mask is the one of the subnet's prefix. -/
  mask_eq : mask = net.netmask
  /-- Masking with it tells what is in the subnet. -/
  mask_mem : ∀ ip, net.contains ip = true ↔ ip.masked mask = net.network
  /-- The gateway and the static address are two members of the subnet. -/
  gateway_mem : net.contains gateway = true
  static_mem : net.contains static = true
  static_ne : static ≠ gateway
  /-- Neither is an address of the pool. -/
  gateway_outside : ¬ (start.toNat ≤ gateway.toNat ∧ gateway.toNat ≤ stop.toNat)
  static_outside : ¬ (start.toNat ≤ static.toNat ∧ static.toNat ≤ stop.toNat)

/-- **The plan told to dnsmasq has no collision**, whatever the subnet and the octets of a
configuration that passed its validation (`h`).  The pool and the mask are read off the
`dhcp-range` line of the file, which has the same ones on any interface and with any paths. -/
theorem addressPlan_collisionFree (cfg : Config) (h : cfg.Valid)
    (iface leasefile pidfile : String) :
    ∃ (start stop mask : Ipv4Addr) (sticky : String),
      (confLines cfg iface leasefile pidfile)[4]? =
        some s!"dhcp-range={start.display},{stop.display},{mask.display},{sticky}" ∧
      CollisionFree cfg.gateway.subnet cfg.gateway.ip cfg.staticAddr start stop mask := by
  obtain ⟨hlt, hstatic, hgateway⟩ := h.range
  refine ⟨cfg.rangeStartAddr, cfg.rangeEndAddr, cfg.gateway.subnet.netmask, _, rfl, ?_⟩
  constructor
  case start_mem => exact h.contains_hostAddr _
  case stop_mem => exact h.contains_hostAddr _
  case start_lt_stop =>
    rw [← Nat.not_le]
    exact fun hle => UInt8.not_le.mpr hlt (Config.hostAddr_le.mp hle)
  case mask_eq => rfl
  case mask_mem => exact Ipv4Net.contains_iff_masked h.gateway.1
  case gateway_mem => exact h.gateway.2.1
  case static_mem => exact h.contains_hostAddr _
  case static_ne => exact h.staticAddr_ne
  case gateway_outside =>
    rw [h.ip_eq_hostAddr]
    exact fun hin => hgateway ⟨Config.hostAddr_le.mp hin.1, Config.hostAddr_le.mp hin.2⟩
  case static_outside =>
    exact fun hin => hstatic ⟨Config.hostAddr_le.mp hin.1, Config.hostAddr_le.mp hin.2⟩

/-- A subnet written with host bits, and a gateway above the pool. -/
theorem hostBits_collisionFree :
    ∃ (start stop mask : Ipv4Addr) (sticky : String),
      (confLines ⟨none, ⟨⟨10, 0, 10, 254⟩, .slash24 ⟨10, 0, 10, 77⟩, 1⟩, ⟨2, 253, "7d"⟩, 5, 15, {}⟩
        "eth0" "leases" "pid")[4]? =
        some s!"dhcp-range={start.display},{stop.display},{mask.display},{sticky}" ∧
      CollisionFree (.slash24 ⟨10, 0, 10, 77⟩) ⟨10, 0, 10, 254⟩ ⟨10, 0, 10, 1⟩ start stop mask :=
  addressPlan_collisionFree
    ⟨none, ⟨⟨10, 0, 10, 254⟩, .slash24 ⟨10, 0, 10, 77⟩, 1⟩, ⟨2, 253, "7d"⟩, 5, 15, {}⟩ (by decide)
    "eth0" "leases" "pid"

/-! ## Usable hosts -/

/-- Neither the network's address nor the broadcast address. -/
def Usable (net : Ipv4Net) (ip : Ipv4Addr) : Prop := ip ≠ net.network ∧ ip ≠ net.broadcast

instance (net : Ipv4Net) (ip : Ipv4Addr) : Decidable (Usable net ip) :=
  inferInstanceAs (Decidable (_ ∧ _))

/-- Every address of the plan is a usable host. -/
def PlanUsable (cfg : Config) : Prop :=
  Usable cfg.gateway.subnet cfg.gateway.ip ∧ Usable cfg.gateway.subnet cfg.staticAddr ∧
    ∀ ip : Ipv4Addr, cfg.rangeStartAddr.toNat ≤ ip.toNat → ip.toNat ≤ cfg.rangeEndAddr.toNat →
      Usable cfg.gateway.subnet ip

theorem Config.Valid.usable_hostAddr {cfg : Config} (h : cfg.Valid) (host : UInt8) :
    Usable cfg.gateway.subnet (cfg.hostAddr host) ↔ host ≠ 0 ∧ host ≠ 255 := by
  rw [Usable, h.network_eq, h.broadcast_eq]
  simp only [ne_eq, Config.hostAddr_inj]

/-- **Which plans are usable**: no octet is that of the network or of the broadcast address.  The
pool is in order, so its ends can each be one of the two only.  A configuration that passed its
validation (`h`) may have any of the four. -/
theorem planUsable_iff (cfg : Config) (h : cfg.Valid) :
    PlanUsable cfg ↔
      (cfg.gateway.ip.o3 ≠ 0 ∧ cfg.gateway.ip.o3 ≠ 255) ∧
      (cfg.gateway.staticHost ≠ 0 ∧ cfg.gateway.staticHost ≠ 255) ∧
      cfg.dhcp.rangeStart ≠ 0 ∧ cfg.dhcp.rangeEnd ≠ 255 := by
  have hgateway : Usable cfg.gateway.subnet cfg.gateway.ip ↔
      cfg.gateway.ip.o3 ≠ 0 ∧ cfg.gateway.ip.o3 ≠ 255 := by
    have hip := h.usable_hostAddr cfg.gateway.ip.o3
    rwa [← h.ip_eq_hostAddr] at hip
  have hpool : (∀ ip : Ipv4Addr, cfg.rangeStartAddr.toNat ≤ ip.toNat →
      ip.toNat ≤ cfg.rangeEndAddr.toNat → Usable cfg.gateway.subnet ip) ↔
      cfg.dhcp.rangeStart ≠ 0 ∧ cfg.dhcp.rangeEnd ≠ 255 := by
    have hle := UInt8.le_of_lt h.range.1
    constructor
    · intro hall
      have hstart := hall cfg.rangeStartAddr (Nat.le_refl _) (Config.hostAddr_le.mpr hle)
      have hstop := hall cfg.rangeEndAddr (Config.hostAddr_le.mpr hle) (Nat.le_refl _)
      exact ⟨((h.usable_hostAddr _).mp hstart).1, ((h.usable_hostAddr _).mp hstop).2⟩
    · rintro ⟨hstart, hstop⟩ ip hlo hhi
      rw [Usable, h.network_eq, h.broadcast_eq]
      constructor
      · rintro rfl
        have hzero := UInt8.le_iff_toNat_le.mp (Config.hostAddr_le.mp hlo)
        exact hstart (UInt8.toNat_inj.mp (Nat.le_zero.mp hzero))
      · rintro rfl
        have hmax := UInt8.le_iff_toNat_le.mp (Config.hostAddr_le.mp hhi)
        have hlt := cfg.dhcp.rangeEnd.toNat_lt
        exact hstop (UInt8.toNat_inj.mp (Nat.le_antisymm (Nat.le_of_lt_succ hlt) hmax))
  rw [PlanUsable, hgateway, hpool]
  exact and_congr Iff.rfl (and_congr (h.usable_hostAddr _) Iff.rfl)

theorem default_planUsable : PlanUsable {} := (planUsable_iff {} (by decide)).mpr (by decide)

/-- The static address may be the broadcast address, and the pool start at the network's. -/
theorem boundary_accepted :
    Config.Valid ⟨none, ⟨⟨192, 168, 0, 254⟩, .slash24 ⟨192, 168, 0, 0⟩, 255⟩, ⟨0, 200, "7d"⟩, 5, 15,
      {}⟩ ∧
    ¬ PlanUsable ⟨none, ⟨⟨192, 168, 0, 254⟩, .slash24 ⟨192, 168, 0, 0⟩, 255⟩, ⟨0, 200, "7d"⟩, 5, 15,
      {}⟩ :=
  ⟨by decide, fun h => absurd h.2.1 (by decide)⟩

end Micronet

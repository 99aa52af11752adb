import Mathlib.Data.List.Infix
import Mathlib.Data.Nat.Bitwise
import Micronet.Probe
import Micronet.Radix
import Micronet.Resolution
import Micronet.Splitting

/-!
# Reading `/sys/class/net`

A directory of sysfs describes each network device in small text files, and what is a
physical Ethernet, whether it is up and what its address is are read off them.  Of what the
kernel writes there these reads miss nothing: the listing has exactly the devices that are
physical Ethernets (`NetClass.listed_iff`).
-/
namespace Micronet
open RustText

/-! ## The functions -/

/-- What is at `<sys_class_net>/<name>`; a text is there if it can be read. -/
structure SysDir where
  type : Option (List Char)
  /-- `wireless` exists. -/
  wireless : Bool
  /-- `bridge` is a directory. -/
  bridge : Bool
  /-- The directory's path without symbolic links. -/
  canonical : Option (List Char)
  flags : Option (List Char)
  carrier : Option (List Char)
  address : Except Error (List Char)

/-- The directories below `sys_class_net`, by their names. -/
abbrev Sysfs : Type := String → Option SysDir

def arphrdEther : Nat := 1

def iffUp : Nat := 0x1

def iffLoopback : Nat := 0x8

/-- `flags`, in hexadecimal. -/
def parseFlags (text : List Char) : Option Nat :=
  fromStrRadix 16 (2 ^ 32) (trimStart0x (trim text))

def virtualMark : List Char := "/devices/virtual/".toList

def isPhysicalEthernet (sys : Sysfs) (name : String) : Bool :=
  if name = "" ∨ '/' ∈ name.toList then false
  else
    match sys name with
    | none => false
    | some dir =>
      match dir.type.bind fun text => parseUnsigned (2 ^ 16) (trim text) with
      | none => false
      | some kind =>
        if kind ≠ arphrdEther then false
        else if dir.wireless then false
        else if dir.bridge then false
        else if dir.canonical.any fun path => virtualMark <:+: path then false
        -- flags that cannot be read are no reason
        else if (dir.flags.bind parseFlags).any fun val => val &&& iffLoopback ≠ 0 then false
        else true

def carrierUpSys (sys : Sysfs) (name : String) : Bool :=
  ((sys name).bind SysDir.carrier).any fun text => trim text = ['1']

def linkIsUpSys (sys : Sysfs) (name : String) : Bool :=
  (((sys name).bind SysDir.flags).bind parseFlags).any fun val => val &&& iffUp ≠ 0

def parseMacPart (text : List Char) : Option UInt8 := (fromStrRadix 16 (2 ^ 8) text).map UInt8.ofNat

def parseMac (s : List Char) : Option Probe.Mac :=
  match (s.splitOn ':').mapM parseMacPart with
  | some [a, b, c, d, e, f] => some #v[a, b, c, d, e, f]
  | _ => none

def readMac (sys : Sysfs) (missing : Error) (iface : String) : Except Error Probe.Mac :=
  match ((sys iface).map SysDir.address).getD (.error missing) with
  | .error e => .error e
  | .ok text =>
    match parseMac (trim text) with
    | some mac => .ok mac
    | none => .error (.dhcpProbe ("bad MAC on " ++ iface))

/-! ## What the kernel writes -/

/-- A network device. -/
structure Device where
  /-- `ARPHRD_*`. -/
  kind : UInt16
  flags : UInt32
  wireless : Bool
  bridge : Bool
  /-- The components of its directory's path. -/
  path : List (List Char)
  path_sep : ∀ c ∈ path, '/' ∉ c
  /-- It cannot be read while the device is down. -/
  carrier : Option Bool
  mac : Probe.Mac

/-- A number in hexadecimal, as the kernel's `%#x` prints it. -/
def hexText (n : Nat) : List Char :=
  if n = 0 then ['0'] else '0' :: 'x' :: Nat.toDigits 16 n

/-- Two hexadecimal digits. -/
def octetText (b : UInt8) : List Char :=
  [Nat.digitChar (b.toNat / 16), Nat.digitChar (b.toNat % 16)]

def macText (mac : Probe.Mac) : List Char := [':'].intercalate (mac.toList.map octetText)

namespace Device

def sysDir (d : Device) : SysDir where
  type := some (Nat.toDigits 10 d.kind.toNat ++ ['\n'])
  wireless := d.wireless
  bridge := d.bridge
  canonical := some (d.path.flatMap ('/' :: ·))
  flags := some (hexText d.flags.toNat ++ ['\n'])
  carrier := d.carrier.map fun b => [if b then '1' else '0', '\n']
  address := .ok (macText d.mac ++ ['\n'])

/-- Its directory is below one of the virtual devices. -/
def IsVirtual (d : Device) : Prop :=
  ∃ a c b, d.path = a ++ "devices".toList :: "virtual".toList :: c :: b

/-- **A physical Ethernet**: `ARPHRD_ETHER`, not virtual, not wifi, not loopback, not bridge. -/
structure Physical (d : Device) : Prop where
  ether : d.kind = 1
  wired : d.wireless = false
  not_bridge : d.bridge = false
  real : ¬ d.IsVirtual
  not_loopback : d.flags.toNat.testBit 3 = false

end Device

/-! ## Every file is read back -/

section Files
variable {n : Nat} {s : List Char}

theorem parseKind_text (kind : UInt16) :
    parseUnsigned (2 ^ 16) (trim (Nat.toDigits 10 kind.toNat ++ ['\n'])) = some kind.toNat := by
  have hspace : ∀ c ∈ Nat.toDigits 10 kind.toNat, isWhitespace c = false := fun c hc =>
    isWhitespace_of_radixValue (radixValue_toDigits (by decide) (by decide) _) hc
  rw [trim_line hspace]
  refine (parseUnsigned_eq_some (by decide)).mpr ?_
  exact ⟨_, toDigits_isNumeral _, Or.inl rfl, (value_toDigits _).symm, kind.toNat_lt⟩

/-- `0x` is no number. -/
theorem trimStart0x_eq_self (h : radixValue 16 s = some n) : trimStart0x s = s := by
  unfold trimStart0x
  split
  · cases h
  · rfl

theorem parseFlags_text (hn : n < 2 ^ 32) : parseFlags (hexText n ++ ['\n']) = some n := by
  by_cases h0 : n = 0
  · subst h0
    rfl
  have hspace : ∀ c ∈ hexText n, isWhitespace c = false := by
    intro c hc
    rw [hexText, if_neg h0, List.mem_cons, List.mem_cons] at hc
    rcases hc with rfl | rfl | hc
    · rfl
    · rfl
    · exact isWhitespace_of_radixValue (radixValue_toDigits (by decide) (by decide) n) hc
  rw [parseFlags, trim_line hspace, hexText, if_neg h0]
  show fromStrRadix 16 (2 ^ 32) (trimStart0x (Nat.toDigits 16 n)) = some n
  rw [trimStart0x_eq_self (radixValue_toDigits (by decide) (by decide) n)]
  exact fromStrRadix_toDigits (by decide) (by decide) hn

end Files

/-! ## Paths -/

section Paths
variable {c : List Char} {cs : List (List Char)}

theorem splitOn_path (hc : '/' ∉ c) (hcs : ∀ d ∈ cs, '/' ∉ d) :
    (c ++ cs.flatMap ('/' :: ·)).splitOn '/' = c :: cs := by
  induction cs generalizing c with
  | nil => simpa using List.splitOn_eq_singleton hc
  | cons d cs ih =>
    rw [List.forall_mem_cons] at hcs
    rw [List.flatMap_cons, List.cons_append, List.splitOn_append_cons_self_of_not_mem hc,
      ih hcs.1 hcs.2]

theorem virtualMark_eq :
    virtualMark = '/' :: ("devices".toList ++ '/' :: ("virtual".toList ++ ['/'])) := by decide

/-- A path has the mark where two of its components are its words, and another follows. -/
theorem virtualMark_iff (hcs : ∀ d ∈ cs, '/' ∉ d) :
    virtualMark <:+: cs.flatMap ('/' :: ·) ↔
      ∃ a c b, cs = a ++ "devices".toList :: "virtual".toList :: c :: b := by
  have hdevices : '/' ∉ "devices".toList := by decide
  have hvirtual : '/' ∉ "virtual".toList := by decide
  rw [virtualMark_eq]
  generalize "devices".toList = devices at *
  generalize "virtual".toList = virt at *
  constructor
  · rintro ⟨x, y, hxy⟩
    have hsplit : x.splitOn '/' ++ devices :: virt :: y.splitOn '/' = [] :: cs := by
      rw [← splitOn_path (c := []) (by simp) hcs, List.nil_append, ← hxy]
      simp only [List.append_assoc, List.cons_append, List.nil_append]
      rw [List.splitOn_append_cons_self, List.splitOn_append_cons_self_of_not_mem hdevices,
        List.splitOn_append_cons_self_of_not_mem hvirtual]
    obtain ⟨u, us, hx⟩ := List.exists_cons_of_ne_nil (List.splitOn_ne_nil '/' x)
    obtain ⟨v, vs, hy⟩ := List.exists_cons_of_ne_nil (List.splitOn_ne_nil '/' y)
    rw [hx, hy, List.cons_append, List.cons.injEq] at hsplit
    exact ⟨us, v, vs, hsplit.2.symm⟩
  · rintro ⟨a, c, b, rfl⟩
    refine ⟨a.flatMap ('/' :: ·), c ++ b.flatMap ('/' :: ·), ?_⟩
    simp

end Paths

/-! ## The devices -/

theorem and_flag_ne_zero (n i : Nat) : n &&& 2 ^ i ≠ 0 ↔ n.testBit i = true := by
  rw [Nat.and_two_pow]
  cases n.testBit i <;> simp

namespace Device
variable {d : Device}

theorem flags_read (d : Device) : d.sysDir.flags.bind parseFlags = some d.flags.toNat :=
  parseFlags_text d.flags.toNat_lt

theorem virtual_read (d : Device) :
    d.sysDir.canonical.any (fun path => virtualMark <:+: path) = true ↔ d.IsVirtual :=
  decide_eq_true_iff.trans (virtualMark_iff d.path_sep)

theorem physical_iff : d.Physical ↔ d.kind = 1 ∧ d.wireless = false ∧ d.bridge = false ∧
    ¬ d.IsVirtual ∧ d.flags.toNat.testBit 3 = false :=
  ⟨fun h => ⟨h.ether, h.wired, h.not_bridge, h.real, h.not_loopback⟩,
    fun ⟨h₁, h₂, h₃, h₄, h₅⟩ => ⟨h₁, h₂, h₃, h₄, h₅⟩⟩

end Device

/-- The devices of the machine, below `/sys/class/net`. -/
structure NetClass where
  /-- The entries of the directory, in the order they are read. -/
  entries : List String
  /-- An entry need not be a device: `bonding_masters` is a file. -/
  device : String → Option Device
  /-- Each device has one entry, which is a file name. -/
  nodup : entries.Nodup
  complete : ∀ i, (device i).isSome → i ∈ entries
  legal : ∀ i ∈ entries, i ≠ "" ∧ '/' ∉ i.toList

namespace NetClass

def sysfs (C : NetClass) : Sysfs := fun i => (C.device i).map Device.sysDir

/-- `list_physical_ethernet`, when the directory can be read. -/
def listEthernet (C : NetClass) : List String :=
  listPhysicalEthernet C.entries (isPhysicalEthernet C.sysfs)

section Devices
variable {C : NetClass} {i : String}

/-- **The filter** lets the physical Ethernets through. -/
theorem isPhysicalEthernet_iff :
    isPhysicalEthernet C.sysfs i = true ↔ ∃ d, C.device i = some d ∧ d.Physical := by
  unfold isPhysicalEthernet
  cases hdevice : C.device i with
  | none => simp [sysfs, hdevice]
  | some d =>
    obtain ⟨hempty, hslash⟩ := C.legal i (C.complete i (by rw [hdevice]; rfl))
    have hdir : C.sysfs i = some d.sysDir := by rw [sysfs, hdevice]; rfl
    have hkind : (d.sysDir.type.bind fun text => parseUnsigned (2 ^ 16) (trim text)) =
        some d.kind.toNat := parseKind_text d.kind
    have hether : d.kind.toNat = arphrdEther ↔ d.kind = 1 := UInt16.toNat_inj (b := 1)
    have hloop : d.flags.toNat &&& iffLoopback ≠ 0 ↔ d.flags.toNat.testBit 3 = true :=
      and_flag_ne_zero d.flags.toNat 3
    -- each check that fails ends in `false`
    have hcheck : ∀ (p : Prop) [Decidable p] (b : Bool),
        (if p then false else b) = true ↔ ¬ p ∧ b = true := fun p _ b => by
      by_cases hp : p <;> simp [hp]
    rw [if_neg (by simp [hempty, hslash]), hdir]
    simp only [hkind, hcheck, d.flags_read, d.virtual_read, Option.any_some, decide_eq_true_eq,
      hloop, ne_eq, hether, Option.some.injEq, exists_eq_left', Device.physical_iff]
    simp [Device.sysDir]

theorem mem_listEthernet : i ∈ C.listEthernet ↔ ∃ d, C.device i = some d ∧ d.Physical := by
  rw [listEthernet, mem_listPhysicalEthernet, isPhysicalEthernet_iff]
  exact and_iff_right_of_imp fun ⟨d, hd, _⟩ => C.complete i (by rw [hd]; rfl)

theorem listEthernet_sorted (C : NetClass) : C.listEthernet.Pairwise (· < ·) := by
  have hnodup : C.listEthernet.Nodup :=
    (List.perm_insertionSort _ _).nodup_iff.mpr (C.nodup.filter _)
  exact (listPhysicalEthernet_sorted.and hnodup).imp fun h => lt_of_le_of_ne h.1 h.2

/-- **The listing** is the physical Ethernets in their order. -/
theorem listed_iff {l : List String} : C.listEthernet = l ↔
    l.Pairwise (· < ·) ∧ ∀ i, i ∈ l ↔ ∃ d, C.device i = some d ∧ d.Physical := by
  constructor
  · rintro rfl
    exact ⟨C.listEthernet_sorted, fun i => mem_listEthernet⟩
  · rintro ⟨hl, hmem⟩
    exact C.listEthernet_sorted.eq_of_mem_iff hl fun i => mem_listEthernet.trans (hmem i).symm

theorem linkIsUpSys_iff :
    linkIsUpSys C.sysfs i = true ↔ ∃ d, C.device i = some d ∧ d.flags.toNat.testBit 0 = true := by
  unfold linkIsUpSys sysfs
  cases C.device i with
  | none => simp
  | some d =>
    have hup : d.flags.toNat &&& iffUp ≠ 0 ↔ d.flags.toNat.testBit 0 = true :=
      and_flag_ne_zero d.flags.toNat 0
    simp only [Option.map_some, Option.bind_some, d.flags_read, Option.any_some,
      decide_eq_true_eq, hup, Option.some.injEq, exists_eq_left']

theorem carrierUpSys_iff :
    carrierUpSys C.sysfs i = true ↔ ∃ d, C.device i = some d ∧ d.carrier = some true := by
  unfold carrierUpSys sysfs
  cases C.device i with
  | none => simp
  | some d =>
    have hread : ∀ b : Bool, trim [if b then '1' else '0', '\n'] = ['1'] ↔ b = true := by decide
    cases hcarrier : d.carrier <;> simp [Device.sysDir, hcarrier, hread]

end Devices
end NetClass

/-! ## Hardware addresses -/

/-- A text that is read as `b`. -/
def OctetText (p : List Char) (b : UInt8) : Prop :=
  ∃ ds, ds ≠ [] ∧ (p = ds ∨ p = '+' :: ds) ∧ radixValue 16 ds = some b.toNat

section Octets
variable {p s : List Char} {b : UInt8} {m : Probe.Mac}

theorem parseMacPart_eq_some : parseMacPart p = some b ↔ OctetText p b := by
  rw [parseMacPart, Option.map_eq_some_iff]
  simp only [fromStrRadix_eq_some (show 0 < 16 by decide) (show 0 < 2 ^ 8 by decide)]
  constructor
  · rintro ⟨n, ⟨ds, hne, hp, hvalue, hlt⟩, rfl⟩
    refine ⟨ds, hne, hp, ?_⟩
    rw [hvalue, UInt8.toNat_ofNat_of_lt' hlt]
  · rintro ⟨ds, hne, hp, hvalue⟩
    exact ⟨b.toNat, ⟨ds, hne, hp, hvalue, b.toNat_lt⟩, UInt8.ofNat_toNat⟩

theorem OctetText.not_colon (h : OctetText p b) : ':' ∉ p := by
  obtain ⟨ds, -, hp, hvalue⟩ := h
  have hds : ':' ∉ ds := by
    intro hmem
    obtain ⟨d, hd⟩ := digit_of_radixValue hvalue hmem
    cases hd
  rcases hp with rfl | rfl
  · exact hds
  · simpa using hds

theorem octetText_text (b : UInt8) : OctetText (octetText b) b := by
  refine ⟨octetText b, by simp [octetText], Or.inl rfl, ?_⟩
  have hlt := b.toNat_lt
  have hhi : toDigit 16 (Nat.digitChar (b.toNat / 16)) = some (b.toNat / 16) :=
    toDigit_digitChar (by decide) (by omega)
  have hlo : toDigit 16 (Nat.digitChar (b.toNat % 16)) = some (b.toNat % 16) :=
    toDigit_digitChar (by decide) (by omega)
  refine radixValue_eq_some.mpr ⟨[b.toNat / 16, b.toNat % 16], ?_, ?_⟩
  · rw [octetText, List.mapM_cons, hhi, List.mapM_cons, hlo]
    rfl
  · show b.toNat = Nat.ofDigits 16 [b.toNat % 16, b.toNat / 16]
    rw [Nat.ofDigits_cons, Nat.ofDigits_singleton]
    omega

theorem parseMac_eq_some_iff_mapM :
    parseMac s = some m ↔ (s.splitOn ':').mapM parseMacPart = some m.toList := by
  obtain ⟨⟨l⟩, hl⟩ := m
  match l, hl with
  | [a, b, c, d, e, f], _ =>
    unfold parseMac
    constructor
    · intro h
      split at h
      · rename_i hread
        rw [hread]
        have hlist := congrArg Vector.toList (Option.some.inj h)
        exact congrArg some hlist
      · cases h
    · intro h
      rw [h]
      rfl

/-- **What is read as a hardware address**: six octets with colons between them. -/
theorem parseMac_eq_some : parseMac s = some m ↔
    ∃ ps, s = [':'].intercalate ps ∧ List.Forall₂ OctetText ps m.toList := by
  have hforall : ∀ ps, List.Forall₂ (fun p b => parseMacPart p = some b) ps m.toList ↔
      List.Forall₂ OctetText ps m.toList := fun ps =>
    ⟨fun h => h.imp fun _ _ => parseMacPart_eq_some.mp, fun h => h.imp fun _ _ =>
      parseMacPart_eq_some.mpr⟩
  rw [parseMac_eq_some_iff_mapM, mapM_eq_some, hforall]
  constructor
  · exact fun h => ⟨_, (List.intercalate_splitOn ':').symm, h⟩
  · rintro ⟨ps, hs, hps⟩
    have hlen : ps.length = 6 := hps.length_eq.trans (by simp)
    have hne : ps ≠ [] := fun h => by rw [h] at hlen; cases hlen
    have hcolon : ∀ p ∈ ps, ':' ∉ p :=
      ((List.forall₂_and_left ps m.toList).mp (hps.imp fun _ _ h => ⟨h.not_colon, h⟩)).1
    rwa [(splitOn_eq_iff hne hcolon).mpr hs]

theorem parseMac_macText (m : Probe.Mac) : parseMac (macText m) = some m := by
  refine parseMac_eq_some.mpr ⟨_, rfl, ?_⟩
  rw [List.forall₂_map_left_iff, List.forall₂_same]
  exact fun b _ => octetText_text b

theorem isWhitespace_of_octetText (h : OctetText p b) {c : Char} (hc : c ∈ p) :
    isWhitespace c = false := by
  obtain ⟨ds, -, rfl | rfl, hvalue⟩ := h
  · exact isWhitespace_of_radixValue hvalue hc
  · rcases List.mem_cons.mp hc with rfl | hc
    · rfl
    · exact isWhitespace_of_radixValue hvalue hc

theorem trim_macText (m : Probe.Mac) : trim (macText m ++ ['\n']) = macText m := by
  refine trim_line fun c hc => ?_
  rcases mem_intercalate hc with rfl | ⟨p, hp, hc⟩
  · rfl
  · obtain ⟨b, -, rfl⟩ := List.mem_map.mp hp
    exact isWhitespace_of_octetText (octetText_text b) hc

theorem readMac_eq_ok {sys : Sysfs} {missing : Error} {i : String} :
    readMac sys missing i = .ok m ↔ ∃ dir text, sys i = some dir ∧ dir.address = .ok text ∧
      parseMac (trim text) = some m := by
  unfold readMac
  cases hdir : sys i with
  | none => simp
  | some dir =>
    cases htext : dir.address with
    | error e => simp [htext]
    | ok text =>
      simp only [Option.map_some, Option.getD_some, htext, Option.some.injEq, Except.ok.injEq,
        exists_and_left, exists_eq_left']
      cases parseMac (trim text) <;> simp

/-- **The address read off sysfs**: six octets in either case, each with any zeros before it
and a `+` before these; of a device it is the device's own. -/
theorem readMac_exact (missing : Error) (i : String) (m : Probe.Mac) :
    (∀ sys : Sysfs, readMac sys missing i = .ok m ↔ ∃ dir text ps, sys i = some dir ∧
      dir.address = .ok text ∧ trim text = [':'].intercalate ps ∧
        List.Forall₂ OctetText ps m.toList) ∧
      ∀ C : NetClass, readMac C.sysfs missing i = .ok m ↔ ∃ d, C.device i = some d ∧ d.mac = m := by
  constructor
  · intro sys
    rw [readMac_eq_ok]
    simp only [parseMac_eq_some, exists_and_left]
  · intro C
    rw [readMac_eq_ok]
    simp only [NetClass.sysfs, Option.map_eq_some_iff]
    constructor
    · rintro ⟨_, _, ⟨d, hd, rfl⟩, htext, hread⟩
      cases htext
      rw [trim_macText, parseMac_macText] at hread
      exact ⟨d, hd, Option.some.inj hread⟩
    · rintro ⟨d, hd, rfl⟩
      refine ⟨_, _, ⟨d, hd, rfl⟩, rfl, ?_⟩
      rw [trim_macText, parseMac_macText]

end Octets
end Micronet

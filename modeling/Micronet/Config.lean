import Micronet.Text
import Micronet.Addr

/-!
# The configuration

`$DATA_DIR/etc/micronet.json` once decoded, its defaults, and `Config.validate`.
`Config.Valid` is what the daemon's paths rely on: every configuration they apply
has passed `validate`.
-/
namespace Micronet
open RustText

/-- Errors, with the data each carries.  A system error is its text. -/
inductive Error
  | io (source : String)
  | ioPath (path source : String)
  | json (source : String)
  | nix (source : String)
  | config (msg : Message)
  | ipc (msg : String)
  | noEthernet
  | notEthernet (name : String)
  | dnsmasqMissing (path : String)
  | dhclientMissing (path : String)
  | dhcpProbe (msg : String)
  | other (msg : String)
deriving DecidableEq, Repr

/-! ## Constants -/

def defaultProbeTimeoutSecs : UInt64 := 5
def defaultLinkRetrySecs : UInt64 := 15
def defaultSticky : String := "7d"
def defaultRangeStart : UInt8 := 50
def defaultRangeEnd : UInt8 := 200
def defaultStaticHost : UInt8 := 252
def requiredPrefix : Nat := 24
def maxDnsRecords : Nat := 64
def maxDnsNameLen : Nat := 253

/-! ## The decoded configuration -/

def defaultGatewayIp : Ipv4Addr := ⟨192, 168, 0, 1⟩

def defaultSubnet : Ipv4Net := .slash24 ⟨192, 168, 0, 0⟩

structure GatewayConfig where
  ip : Ipv4Addr := defaultGatewayIp
  subnet : Ipv4Net := defaultSubnet
  staticHost : UInt8 := defaultStaticHost
deriving DecidableEq, Repr

structure DhcpConfig where
  rangeStart : UInt8 := defaultRangeStart
  rangeEnd : UInt8 := defaultRangeEnd
  /-- The lease duration handed to dnsmasq. -/
  sticky : String := defaultSticky
deriving DecidableEq, Repr

/-- One unicast A record; without `addr` it is `gateway.ip`. -/
structure DnsRecord where
  name : String
  addr : Option Ipv4Addr := none
deriving DecidableEq, Repr

structure DnsConfig where
  enabled : Bool := false
  records : List DnsRecord := []
deriving DecidableEq, Repr

structure Config where
  /-- `none` and `"auto"` pick a physical Ethernet by its carrier; any other name
  pins it. -/
  interface : Option String := none
  gateway : GatewayConfig := {}
  dhcp : DhcpConfig := {}
  probeTimeoutSecs : UInt64 := defaultProbeTimeoutSecs
  /-- Seconds without carrier on the chosen interface before a full re-select. -/
  linkRetrySecs : UInt64 := defaultLinkRetrySecs
  dns : DnsConfig := {}
deriving DecidableEq, Repr

/-! ## Text fields -/

/-- `if c { return Err(Error::Config(..)) }`. -/
def reject (c : Prop) [Decidable c] (msg : Message) : Except Error Unit :=
  if c then .error (.config msg) else .ok ()

/-- One label of a DNS name, checked and in lower case. -/
def normalizeLabel (trimmed label : List Char) : Except Error (List Char) := do
  let shown := Piece.debug (String.ofList trimmed)
  reject (label = [] ∨ 63 < byteLen label)
    [.text "dns record name ", shown, .text " has an empty or overlong label"]
  reject (label.head? = some '-' ∨ label.getLast? = some '-')
    [.text "dns record name ", shown, .text " has a label starting or ending with '-'"]
  reject (¬ label.all fun c => isAsciiAlphanumeric c || c == '-')
    [.text "dns record name ", shown, .text " is not a DNS hostname"]
  return label.map toAsciiLowercase

/-- Trim, strip trailing root dots, lowercase; empty or illegal labels are
rejected. -/
def normalizeDnsName (name : String) : Except Error String := do
  let trimmed := trimEndMatches (· == '.') (trim name.toList)
  reject (trimmed = []) [.text "dns record name must not be empty"]
  reject (maxDnsNameLen < byteLen trimmed)
    [.text s!"dns record name longer than {maxDnsNameLen} characters"]
  reject ('\x00' ∈ trimmed ∨ ' ' ∈ trimmed ∨ ',' ∈ trimmed)
    [.text "dns record name ", .debug (String.ofList trimmed), .text " has illegal characters"]
  let labels ← (trimmed.splitOn '.').mapM (normalizeLabel trimmed)
  return String.ofList (['.'].intercalate labels)

/-- The number and the unit of a duration; the suffixes are tried in this order. -/
def splitUnit (s : List Char) : List Char × Nat :=
  match stripSuffix 's' s, stripSuffix 'm' s, stripSuffix 'h' s, stripSuffix 'd' s,
      stripSuffix 'w' s with
  | some rest, _, _, _, _ => (rest, 1)
  | none, some rest, _, _, _ => (rest, 60)
  | none, none, some rest, _, _ => (rest, 3600)
  | none, none, none, some rest, _ => (rest, 86400)
  | none, none, none, none, some rest => (rest, 604800)
  | none, none, none, none, none => (s, 1)

/-- A dnsmasq duration in seconds (`7d`, `72h`, `45s`, bare seconds); at least one. -/
def parseSticky (s : String) : Except Error Nat := do
  let s := trim s.toList
  reject (s = []) [.text "dhcp.sticky must not be empty"]
  let (num, mul) := splitUnit s
  match parseUnsigned (2 ^ 64) num with
  | none =>
    throw (.config [.text "dhcp.sticky ", .debug (String.ofList s), .text " is not a duration"])
  | some n =>
    reject (n = 0) [.text "dhcp.sticky must be > 0"]
    -- `checked_mul`
    reject (2 ^ 64 ≤ n * mul) [.text "dhcp.sticky overflow"]
    return n * mul

/-! ## Validation and the address plan -/

namespace Config

/-- The records' names, each normalised and none of them seen before. -/
def checkRecords : List String → List DnsRecord → Except Error Unit
  | _, [] => return ()
  | seen, rec :: records => do
    let name ← normalizeDnsName rec.name
    reject (name ∈ seen) [.text s!"dns.records duplicate name {name}"]
    checkRecords (seen ++ [name]) records

def validateDns (cfg : Config) : Except Error Unit := do
  reject (maxDnsRecords < cfg.dns.records.length)
    [.text s!"dns.records must have at most {maxDnsRecords} entries"]
  checkRecords [] cfg.dns.records

def validateInterface : Option String → Except Error Unit
  | none => return ()
  | some name => do
    reject (name = "") [.text "interface must not be empty"]
    reject ('/' ∈ name.toList ∨ '\x00' ∈ name.toList)
      [.text "interface must be a simple device name"]

/-- Operator input is checked in this order; the first failing check is the error. -/
def validate (cfg : Config) : Except Error Unit := do
  reject (cfg.gateway.subnet.prefixLen ≠ requiredPrefix)
    [.text s!"gateway.subnet must be /{requiredPrefix}"]
  reject (¬ cfg.gateway.subnet.contains cfg.gateway.ip)
    [.text "gateway.ip is not in gateway.subnet"]
  let gwHost := cfg.gateway.ip.o3
  reject (cfg.gateway.staticHost = gwHost)
    [.text "gateway.staticHost must differ from gateway.ip host"]
  reject (cfg.dhcp.rangeStart ≥ cfg.dhcp.rangeEnd) [.text "dhcp.rangeStart must be < rangeEnd"]
  reject (cfg.gateway.staticHost ≥ cfg.dhcp.rangeStart ∧
      cfg.gateway.staticHost ≤ cfg.dhcp.rangeEnd)
    [.text "gateway.staticHost must be outside dhcp range"]
  reject (gwHost ≥ cfg.dhcp.rangeStart ∧ gwHost ≤ cfg.dhcp.rangeEnd)
    [.text "gateway.ip host must be outside dhcp range"]
  let _ ← parseSticky cfg.dhcp.sticky
  reject (cfg.probeTimeoutSecs = 0) [.text "probeTimeoutSecs must be > 0"]
  reject (cfg.linkRetrySecs = 0) [.text "linkRetrySecs must be > 0"]
  validateInterface cfg.interface
  cfg.validateDns

/-- `cfg` passes `validate`. -/
def Valid (cfg : Config) : Prop := cfg.validate = .ok ()

instance (cfg : Config) : Decidable cfg.Valid := inferInstanceAs (Decidable (_ = _))

/-- The address with last octet `host` in `gateway.subnet`. -/
def hostAddr (cfg : Config) (host : UInt8) : Ipv4Addr :=
  let o := cfg.gateway.subnet.network
  ⟨o.o0, o.o1, o.o2, host⟩

def staticAddr (cfg : Config) : Ipv4Addr := cfg.hostAddr cfg.gateway.staticHost

def gatewayCidr (cfg : Config) : Ipv4Net := .slash24 cfg.gateway.ip

def staticCidr (cfg : Config) : Ipv4Net := .slash24 cfg.staticAddr

/-! ### What a valid configuration promises -/

/-- A check that lets a configuration through has not fired. -/
theorem reject_bind_iff {α : Type} {c : Prop} [Decidable c] {msg : Message}
    {x : Unit → Except Error α} {a : α} :
    (reject c msg >>= x) = .ok a ↔ ¬ c ∧ x () = .ok a := by
  by_cases h : c <;> simp [reject, h, bind, Except.bind]

theorem bind_ok_iff {α β : Type} {x : Except Error α} {f : α → Except Error β} {b : β} :
    (x >>= f) = .ok b ↔ ∃ a, x = .ok a ∧ f a = .ok b := by
  cases x <;> simp [bind, Except.bind]

variable {cfg : Config}

/-- **What passes `validate`**: every check, in the order it is made. -/
theorem valid_iff :
    cfg.Valid ↔
      (cfg.gateway.subnet.prefixLen = 24 ∧ cfg.gateway.subnet.contains cfg.gateway.ip = true ∧
        cfg.gateway.staticHost ≠ cfg.gateway.ip.o3) ∧
      (cfg.dhcp.rangeStart < cfg.dhcp.rangeEnd ∧
        ¬ (cfg.dhcp.rangeStart ≤ cfg.gateway.staticHost ∧
          cfg.gateway.staticHost ≤ cfg.dhcp.rangeEnd) ∧
        ¬ (cfg.dhcp.rangeStart ≤ cfg.gateway.ip.o3 ∧ cfg.gateway.ip.o3 ≤ cfg.dhcp.rangeEnd)) ∧
      (∃ secs, parseSticky cfg.dhcp.sticky = .ok secs) ∧
      (cfg.probeTimeoutSecs ≠ 0 ∧ cfg.linkRetrySecs ≠ 0) ∧
      validateInterface cfg.interface = .ok () ∧ cfg.validateDns = .ok () := by
  unfold Valid validate
  simp only [reject_bind_iff, ne_eq, Decidable.not_not, ge_iff_le, UInt8.not_le]
  rw [bind_ok_iff]
  simp only [reject_bind_iff, bind_ok_iff (x := validateInterface _)]
  constructor
  · rintro ⟨h1, h2, h3, h4, h5, h6, secs, h7, h8, h9, _, h10, h11⟩
    exact ⟨⟨h1, h2, h3⟩, ⟨h4, h5, h6⟩, ⟨secs, h7⟩, ⟨h8, h9⟩, h10, h11⟩
  · rintro ⟨⟨h1, h2, h3⟩, ⟨h4, h5, h6⟩, ⟨secs, h7⟩, ⟨h8, h9⟩, h10, h11⟩
    exact ⟨h1, h2, h3, h4, h5, h6, secs, h7, h8, h9, (), h10, h11⟩

theorem Valid.gateway (h : cfg.Valid) :
    cfg.gateway.subnet.prefixLen = 24 ∧ cfg.gateway.subnet.contains cfg.gateway.ip = true ∧
      cfg.gateway.staticHost ≠ cfg.gateway.ip.o3 := (valid_iff.mp h).1

theorem Valid.range (h : cfg.Valid) :
    cfg.dhcp.rangeStart < cfg.dhcp.rangeEnd ∧
      ¬ (cfg.dhcp.rangeStart ≤ cfg.gateway.staticHost ∧
        cfg.gateway.staticHost ≤ cfg.dhcp.rangeEnd) ∧
      ¬ (cfg.dhcp.rangeStart ≤ cfg.gateway.ip.o3 ∧ cfg.gateway.ip.o3 ≤ cfg.dhcp.rangeEnd) :=
  (valid_iff.mp h).2.1

theorem Valid.sticky (h : cfg.Valid) : ∃ secs, parseSticky cfg.dhcp.sticky = .ok secs :=
  (valid_iff.mp h).2.2.1

theorem Valid.linkRetrySecs_ne_zero (h : cfg.Valid) : cfg.linkRetrySecs ≠ 0 :=
  (valid_iff.mp h).2.2.2.1.2

theorem Valid.dns (h : cfg.Valid) : cfg.validateDns = .ok () := (valid_iff.mp h).2.2.2.2.2

/-- The static address is `gateway.ip` with another last octet. -/
theorem Valid.staticAddr_eq (h : cfg.Valid) :
    cfg.staticAddr =
      ⟨cfg.gateway.ip.o0, cfg.gateway.ip.o1, cfg.gateway.ip.o2, cfg.gateway.staticHost⟩ := by
  obtain ⟨h24, hin, -⟩ := h.gateway
  obtain ⟨e0, e1, e2⟩ := (Ipv4Net.contains_of_24 h24 _).mp hin
  rw [staticAddr, hostAddr, Ipv4Net.network_of_24 h24, e0, e1, e2]

theorem Valid.staticAddr_ne (h : cfg.Valid) : cfg.staticAddr ≠ cfg.gateway.ip := by
  rw [h.staticAddr_eq]
  intro he
  exact h.gateway.2.2 (congrArg Ipv4Addr.o3 he)

/-- From the static address, `gateway.ip` is on the link. -/
theorem Valid.staticCidr_contains (h : cfg.Valid) :
    cfg.staticCidr.contains cfg.gateway.ip = true := by
  refine (Ipv4Net.contains_of_24 rfl _).mpr ?_
  simp [staticCidr, h.staticAddr_eq]

example : ({} : Config).Valid := by decide

end Config
end Micronet

import Micronet.Config
import Micronet.DottedQuad
import Micronet.Serde

/-!
# The configuration file

`micronet.json` is written and read by derived code.  Every member but a record's name has a
default, given once for the field and once more in the `Default` of its struct; they agree,
so any members with their default value may be left out, at any level.
-/
namespace Micronet
open Serde

def u8Codec : Codec UInt8 :=
  .unsigned 256 UInt8.toNat UInt8.ofNat UInt8.toNat_lt fun _ => UInt8.ofNat_toNat

def u64Codec : Codec UInt64 :=
  .unsigned (2 ^ 64) UInt64.toNat UInt64.ofNat UInt64.toNat_lt fun _ => UInt64.ofNat_toNat

def Ipv4Addr.text : TextForm Ipv4Addr :=
  ⟨display, fun s => parse s.toList, fun _ => parse_eq_some.mpr rfl⟩

/-! ## Sections -/

section Sections
-- the text of a prefix is another crate's
variable (net : TextForm Ipv4Net)

namespace GatewayConfig

def ipField : JsonField Ipv4Addr :=
  { name := camelField "ip", codec := Ipv4Addr.text.codec, missing := some defaultGatewayIp }
def subnetField : JsonField Ipv4Net :=
  { name := camelField "subnet", codec := net.codec, missing := some defaultSubnet }
def staticHostField : JsonField UInt8 :=
  { name := camelField "static_host", codec := u8Codec, missing := some defaultStaticHost }

def entries (g : GatewayConfig) : Entries :=
  ipField.write g.ip ++ (subnetField net).write g.subnet ++ staticHostField.write g.staticHost

def read (m : Entries) : Result GatewayConfig := do
  let ip ← ipField.read m
  let subnet ← (subnetField net).read m
  let staticHost ← staticHostField.read m
  return ⟨ip, subnet, staticHost⟩

theorem read_leaveOut (g : GatewayConfig) {drop : String → Bool}
    (hip : drop "ip" = true → g.ip = defaultGatewayIp)
    (hsubnet : drop "subnet" = true → g.subnet = defaultSubnet)
    (hstatic : drop "staticHost" = true → g.staticHost = defaultStaticHost) :
    read net (leaveOut drop (fun _ j => j) (g.entries net)) = .ok g := by
  unfold read
  rw [JsonField.read_leaveOut_leaf (f := ipField) (a := g.ip) ?_
      (JsonField.recovers_of_not_skip rfl) fun h => congrArg some (hip h).symm,
    JsonField.read_leaveOut_leaf (f := subnetField net) (a := g.subnet) ?_
      (JsonField.recovers_of_not_skip rfl) fun h => congrArg some (hsubnet h).symm,
    JsonField.read_leaveOut_leaf (f := staticHostField) (a := g.staticHost) ?_
      (JsonField.recovers_of_not_skip rfl) fun h => congrArg some (hstatic h).symm]
  · rfl
  all_goals
    simp (disch := exact of_decide_eq_true rfl) [entries, JsonField.valuesOf_write_ne]

def codec : Codec GatewayConfig :=
  .struct [ipField.name, (subnetField net).name, staticHostField.name] (entries net) (read net)
    fun g => by
      have hread := @read_leaveOut net g (fun _ => false) (by simp) (by simp) (by simp)
      rwa [leaveOut_none] at hread

end GatewayConfig

namespace DhcpConfig

def rangeStartField : JsonField UInt8 :=
  { name := camelField "range_start", codec := u8Codec, missing := some defaultRangeStart }
def rangeEndField : JsonField UInt8 :=
  { name := camelField "range_end", codec := u8Codec, missing := some defaultRangeEnd }
def stickyField : JsonField String :=
  { name := camelField "sticky", codec := .str, missing := some defaultSticky }

def entries (d : DhcpConfig) : Entries :=
  rangeStartField.write d.rangeStart ++ rangeEndField.write d.rangeEnd ++ stickyField.write d.sticky

def read (m : Entries) : Result DhcpConfig := do
  let rangeStart ← rangeStartField.read m
  let rangeEnd ← rangeEndField.read m
  let sticky ← stickyField.read m
  return ⟨rangeStart, rangeEnd, sticky⟩

theorem read_leaveOut (d : DhcpConfig) {drop : String → Bool}
    (hstart : drop "rangeStart" = true → d.rangeStart = defaultRangeStart)
    (hend : drop "rangeEnd" = true → d.rangeEnd = defaultRangeEnd)
    (hsticky : drop "sticky" = true → d.sticky = defaultSticky) :
    read (leaveOut drop (fun _ j => j) d.entries) = .ok d := by
  unfold read
  rw [JsonField.read_leaveOut_leaf (f := rangeStartField) (a := d.rangeStart) ?_
      (JsonField.recovers_of_not_skip rfl) fun h => congrArg some (hstart h).symm,
    JsonField.read_leaveOut_leaf (f := rangeEndField) (a := d.rangeEnd) ?_
      (JsonField.recovers_of_not_skip rfl) fun h => congrArg some (hend h).symm,
    JsonField.read_leaveOut_leaf (f := stickyField) (a := d.sticky) ?_
      (JsonField.recovers_of_not_skip rfl) fun h => congrArg some (hsticky h).symm]
  · rfl
  all_goals
    simp (disch := exact of_decide_eq_true rfl) [entries, JsonField.valuesOf_write_ne]

def codec : Codec DhcpConfig :=
  .struct [rangeStartField.name, rangeEndField.name, stickyField.name] entries read fun d => by
    have hread := @read_leaveOut d (fun _ => false) (by simp) (by simp) (by simp)
    rwa [leaveOut_none] at hread

end DhcpConfig
namespace DnsRecord

def nameField : JsonField String := { name := camelField "name", codec := .str }
def addrField : JsonField (Option Ipv4Addr) :=
  { name := camelField "addr", codec := .option Ipv4Addr.text.codec fun _ => nofun,
    skip := Option.isNone, missing := some none }

def entries (rec : DnsRecord) : Entries := nameField.write rec.name ++ addrField.write rec.addr

def read (m : Entries) : Result DnsRecord := do
  let name ← nameField.read m
  let addr ← addrField.read m
  return ⟨name, addr⟩

/-- An address that is left out is no address. -/
theorem addrField_recovers (addr : Option Ipv4Addr) : addrField.Recovers addr := by
  intro hskip
  rw [Option.isNone_iff_eq_none.mp hskip]
  rfl

theorem read_entries (rec : DnsRecord) : read rec.entries = .ok rec := by
  unfold read
  rw [(JsonField.read_eq_ok (f := nameField) (a := rec.name) ?_).mpr
      (JsonField.recovers_of_not_skip rfl),
    (JsonField.read_eq_ok (f := addrField) (a := rec.addr) ?_).mpr (addrField_recovers rec.addr)]
  · rfl
  all_goals
    simp (disch := decide) [entries, JsonField.valuesOf_write_ne]

def codec : Codec DnsRecord := .struct [nameField.name, addrField.name] entries read read_entries

end DnsRecord

namespace DnsConfig

/-- `DnsConfig::is_default`. -/
def isDefault (dns : DnsConfig) : Bool := !dns.enabled && dns.records.isEmpty

def enabledField : JsonField Bool :=
  { name := camelField "enabled", codec := .bool, missing := some false }
def recordsField : JsonField (List DnsRecord) :=
  { name := camelField "records", codec := .list DnsRecord.codec, missing := some [] }

def entries (dns : DnsConfig) : Entries :=
  enabledField.write dns.enabled ++ recordsField.write dns.records

def read (m : Entries) : Result DnsConfig := do
  let enabled ← enabledField.read m
  let records ← recordsField.read m
  return ⟨enabled, records⟩

theorem read_leaveOut (dns : DnsConfig) {drop : String → Bool}
    (henabled : drop "enabled" = true → dns.enabled = false)
    (hrecords : drop "records" = true → dns.records = []) :
    read (leaveOut drop (fun _ j => j) dns.entries) = .ok dns := by
  unfold read
  rw [JsonField.read_leaveOut_leaf (f := enabledField) (a := dns.enabled) ?_
      (JsonField.recovers_of_not_skip rfl) fun h => congrArg some (henabled h).symm,
    JsonField.read_leaveOut_leaf (f := recordsField) (a := dns.records) ?_
      (JsonField.recovers_of_not_skip rfl) fun h => congrArg some (hrecords h).symm]
  · rfl
  all_goals
    simp (disch := decide) [entries, JsonField.valuesOf_write_ne]

def codec : Codec DnsConfig :=
  .struct [enabledField.name, recordsField.name] entries read fun dns => by
    have hread := @read_leaveOut dns (fun _ => false) (by simp) (by simp)
    rwa [leaveOut_none] at hread

end DnsConfig

/-! ## The whole file -/

namespace Config

def interfaceField : JsonField (Option String) :=
  { name := camelField "interface", codec := .option .str fun _ => nofun, missing := some none }
def gatewayField : JsonField GatewayConfig :=
  { name := camelField "gateway", codec := GatewayConfig.codec net, missing := some {} }
def dhcpField : JsonField DhcpConfig :=
  { name := camelField "dhcp", codec := DhcpConfig.codec, missing := some {} }
def probeTimeoutSecsField : JsonField UInt64 :=
  { name := camelField "probe_timeout_secs", codec := u64Codec,
    missing := some defaultProbeTimeoutSecs }
def linkRetrySecsField : JsonField UInt64 :=
  { name := camelField "link_retry_secs", codec := u64Codec, missing := some defaultLinkRetrySecs }
def dnsField : JsonField DnsConfig :=
  { name := camelField "dns", codec := DnsConfig.codec, skip := DnsConfig.isDefault,
    missing := some {} }

def entries (cfg : Config) : Entries :=
  interfaceField.write cfg.interface ++ (gatewayField net).write cfg.gateway ++
    dhcpField.write cfg.dhcp ++ probeTimeoutSecsField.write cfg.probeTimeoutSecs ++
    linkRetrySecsField.write cfg.linkRetrySecs ++ dnsField.write cfg.dns

def read (m : Entries) : Result Config := do
  let interface ← interfaceField.read m
  let gateway ← (gatewayField net).read m
  let dhcp ← dhcpField.read m
  let probeTimeoutSecs ← probeTimeoutSecsField.read m
  let linkRetrySecs ← linkRetrySecsField.read m
  let dns ← dnsField.read m
  return ⟨interface, gateway, dhcp, probeTimeoutSecs, linkRetrySecs, dns⟩

/-- The derived `Serialize`. -/
def toJson (cfg : Config) : Json := .obj (cfg.entries net)

/-- The derived `Deserialize`. -/
def ofJson (j : Json) : Result Config :=
  Codec.structEntries [interfaceField.name, (gatewayField net).name, dhcpField.name,
    probeTimeoutSecsField.name, linkRetrySecsField.name, dnsField.name] j >>= read net

/-- Members to leave out of the file, and out of each of its sections. -/
structure Omission where
  top : String → Bool
  inside : String → String → Bool

/-- The file without them. -/
def Omission.apply (o : Omission) : Json → Json
  | .obj m => .obj (leaveOut o.top (fun name j => j.without (o.inside name)) m)
  | j => j

/-- Each member that is left out has its default value. -/
structure Omission.Allowed (o : Omission) (cfg : Config) : Prop where
  /-- The members of the file itself. -/
  interface : o.top "interface" = true → cfg.interface = none
  gateway : o.top "gateway" = true → cfg.gateway = {}
  dhcp : o.top "dhcp" = true → cfg.dhcp = {}
  probeTimeoutSecs : o.top "probeTimeoutSecs" = true →
    cfg.probeTimeoutSecs = defaultProbeTimeoutSecs
  linkRetrySecs : o.top "linkRetrySecs" = true → cfg.linkRetrySecs = defaultLinkRetrySecs
  dns : o.top "dns" = true → cfg.dns = {}
  /-- Those of its `gateway`, its `dhcp` and its `dns`. -/
  ip : o.inside "gateway" "ip" = true → cfg.gateway.ip = defaultGatewayIp
  subnet : o.inside "gateway" "subnet" = true → cfg.gateway.subnet = defaultSubnet
  staticHost : o.inside "gateway" "staticHost" = true → cfg.gateway.staticHost = defaultStaticHost
  rangeStart : o.inside "dhcp" "rangeStart" = true → cfg.dhcp.rangeStart = defaultRangeStart
  rangeEnd : o.inside "dhcp" "rangeEnd" = true → cfg.dhcp.rangeEnd = defaultRangeEnd
  sticky : o.inside "dhcp" "sticky" = true → cfg.dhcp.sticky = defaultSticky
  enabled : o.inside "dns" "enabled" = true → cfg.dns.enabled = false
  records : o.inside "dns" "records" = true → cfg.dns.records = []

/-- A section that is left out is the one without records. -/
theorem dnsField_recovers (dns : DnsConfig) : dnsField.Recovers dns := by
  intro hskip
  obtain ⟨enabled, records⟩ := dns
  have hdefault : (!enabled && records.isEmpty) = true := hskip
  rw [Bool.and_eq_true, Bool.not_eq_true', List.isEmpty_iff] at hdefault
  obtain ⟨rfl, rfl⟩ := hdefault
  rfl

theorem without_interface (interface : Option String) (drop : String → Bool) :
    (interfaceField.codec.encode interface).without drop =
      interfaceField.codec.encode interface := by
  cases interface <;> rfl

/-- **What is left out comes back**: the file is read as the configuration it was written
for, less any members with their default values. -/
theorem ofJson_apply (cfg : Config) (o : Omission) (h : o.Allowed cfg) :
    ofJson net (o.apply (cfg.toJson net)) = .ok cfg := by
  show read net (leaveOut o.top (fun name j => j.without (o.inside name)) (cfg.entries net)) = _
  -- one member, with what is left out of it
  have hread : ∀ {α : Type} (f : JsonField α) (a : α),
      valuesOf f.name (cfg.entries net) = f.write a → f.Recovers a →
      (o.top f.name = true → f.missing = some a) →
      f.codec.decode ((f.codec.encode a).without (o.inside f.name)) = .ok a →
      f.read (leaveOut o.top (fun name j => j.without (o.inside name)) (cfg.entries net)) = .ok a :=
    fun f a hm hrecovers hdrop hinner => JsonField.read_leaveOut hm hrecovers hdrop hinner
  have hinterface : interfaceField.codec.decode ((interfaceField.codec.encode cfg.interface).without
      (o.inside interfaceField.name)) = .ok cfg.interface := by
    rw [without_interface]
    exact interfaceField.codec.decode_encode cfg.interface
  unfold read
  rw [hread interfaceField cfg.interface ?_ (JsonField.recovers_of_not_skip rfl)
      (fun h' => congrArg some (h.interface h').symm) hinterface,
    hread (gatewayField net) cfg.gateway ?_ (JsonField.recovers_of_not_skip rfl)
      (fun h' => congrArg some (h.gateway h').symm)
      (GatewayConfig.read_leaveOut net cfg.gateway h.ip h.subnet h.staticHost),
    hread dhcpField cfg.dhcp ?_ (JsonField.recovers_of_not_skip rfl)
      (fun h' => congrArg some (h.dhcp h').symm)
      (DhcpConfig.read_leaveOut cfg.dhcp h.rangeStart h.rangeEnd h.sticky),
    hread probeTimeoutSecsField cfg.probeTimeoutSecs ?_ (JsonField.recovers_of_not_skip rfl)
      (fun h' => congrArg some (h.probeTimeoutSecs h').symm)
      (u64Codec.decode_encode cfg.probeTimeoutSecs),
    hread linkRetrySecsField cfg.linkRetrySecs ?_ (JsonField.recovers_of_not_skip rfl)
      (fun h' => congrArg some (h.linkRetrySecs h').symm)
      (u64Codec.decode_encode cfg.linkRetrySecs),
    hread dnsField cfg.dns ?_ (dnsField_recovers cfg.dns)
      (fun h' => congrArg some (h.dns h').symm)
      (DnsConfig.read_leaveOut cfg.dns h.enabled h.records)]
  · rfl
  all_goals
    simp (disch := exact of_decide_eq_true rfl) [entries, JsonField.valuesOf_write_ne]

theorem Omission.apply_none (cfg : Config) :
    apply ⟨fun _ => false, fun _ _ => false⟩ (cfg.toJson net) = cfg.toJson net := by
  have hwithout : ∀ j : Json, j.without (fun _ => false) = j := by
    intro j
    cases j with
    | obj m => rw [Json.without, leaveOut_none]
    | _ => rfl
  show Json.obj
      (leaveOut (fun _ => false) (fun _ j => j.without fun _ => false) (cfg.entries net)) =
    Json.obj (cfg.entries net)
  simp only [hwithout, leaveOut_none]

/-- **The file is read back**, in any text format that parses what it prints (`F`), whole or with
any members left out that have their default value, at the top or inside of `gateway`, `dhcp` and
`dns`.  The configuration need not be valid. -/
theorem json_roundtrip {τ : Type} (F : Format τ) (cfg : Config) :
    (F.parse (F.print (cfg.toJson net)) >>= ofJson net) = .ok cfg ∧
      ∀ o : Omission, o.Allowed cfg →
        (F.parse (F.print (o.apply (cfg.toJson net))) >>= ofJson net) = .ok cfg := by
  have hall : ∀ o : Omission, o.Allowed cfg →
      (F.parse (F.print (o.apply (cfg.toJson net))) >>= ofJson net) = .ok cfg := by
    intro o ho
    rw [F.parse_print]
    exact ofJson_apply net cfg o ho
  refine ⟨?_, hall⟩
  have hnone := hall ⟨fun _ => false, fun _ _ => false⟩
    (by constructor <;> exact fun h => absurd h Bool.false_ne_true)
  rwa [Omission.apply_none] at hnone

end Config
end Sections

/-- A text of the prefixes, for the file on its own. -/
def Ipv4Net.text : TextForm Ipv4Net :=
  ⟨display, fun s => ofDisplay s.toList, ofDisplay_display⟩

/-- Without its gateway and the start of its range, a file with another duration. -/
theorem Config.sticky_roundtrip :
    (Format.value.parse (Format.value.print (Omission.apply
        ⟨fun name => name == "gateway", fun _ name => name == "rangeStart"⟩
        (toJson Ipv4Net.text { dhcp := { sticky := "3d" } }))) >>= ofJson Ipv4Net.text) =
      .ok { dhcp := { sticky := "3d" } } :=
  (json_roundtrip Ipv4Net.text .value { dhcp := { sticky := "3d" } }).2
    ⟨fun name => name == "gateway", fun _ name => name == "rangeStart"⟩
    (by constructor <;> decide)

end Micronet

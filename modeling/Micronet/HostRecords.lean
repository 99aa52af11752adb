import Mathlib.Data.List.Basic
import Micronet.ConfDirectives

/-!
# What a host-record means

dnsmasq takes each field of a `host-record` for an address when it is a dotted quad, and
for a name otherwise.  A host name may be a dotted quad, and then the line has no name.
-/
namespace Micronet
open RustText Settings

/-- What dnsmasq takes the fields of a `host-record` for. -/
structure HostRecord where
  names : List (List Char)
  addrs : List Ipv4Addr
deriving DecidableEq, Repr

namespace HostRecord

def ofValue (value : List Char) : HostRecord :=
  let fields := value.splitOn ','
  ⟨fields.filter fun f => (Ipv4Addr.parse f).isNone, fields.filterMap Ipv4Addr.parse⟩

/-- A directive of another key is no `host-record`. -/
def ofDirective : Directive → Option HostRecord
  | .setting key value => if key = "host-record" then some (ofValue value.toList) else none
  | _ => none

end HostRecord

/-- The `host-record` lines of the file are read as the records, each with its normalised
name and its address. -/
def RecordsReadBack (cfg : Config) : Prop :=
  ∃ names, Named cfg names ∧ ∀ iface leasefile pidfile : String,
    (confLines cfg iface leasefile pidfile).filterMap
        (fun line => HostRecord.ofDirective (Directive.ofLine line.toList)) =
      (names.zip cfg.dns.records).map fun p => ⟨[p.1.toList], [cfg.dnsRecordIp p.2]⟩

/-- Without white space and final dots, the text is a dotted quad. -/
def IsQuad (s : String) : Prop :=
  (Ipv4Addr.parse (trimEndMatches (· == '.') (trim s.toList))).isSome

instance (s : String) : Decidable (IsQuad s) := inferInstanceAs (Decidable (_ = true))

section Names
variable {cfg : Config} {names : List String} {s name : String} {iface leasefile pidfile : String}

/-- Capitals become no digits, so a dotted quad was one before. -/
theorem parse_normalizeDnsName (h : normalizeDnsName s = .ok name) :
    (Ipv4Addr.parse name.toList).isSome = true ↔ IsQuad s := by
  obtain ⟨n, k, hn, hw, rfl⟩ := normalizeDnsName_eq_ok.mp h
  have htrim : trimEndMatches (· == '.') (trim s.toList) = n := by
    rw [hw]
    exact trimEndMatches_append_replicate k hn.getLast?_ne
  have hlower : (∀ c ∈ n, (c.isDigit = true ∨ c = '.') ∨
      (toAsciiLowercase c).isDigit = true ∨ toAsciiLowercase c = '.') → lower n = n := by
    intro hall
    rw [lower]
    refine (List.map_congr_left fun c hc => ?_).trans (List.map_id n)
    rcases hn.chars hc with rfl | hlabel
    · rfl
    · exact forall_labelChar (P := fun c => (c.isDigit = true ∨ c = '.') ∨
        (toAsciiLowercase c).isDigit = true ∨ toAsciiLowercase c = '.' → toAsciiLowercase c = c)
        (by decide) hlabel (hall c hc)
  rw [IsQuad, htrim, String.toList_ofList]
  constructor
  · intro hsome
    obtain ⟨a, ha⟩ := Option.isSome_iff_exists.mp hsome
    have hshown := Ipv4Addr.parse_eq_some.mp ha
    have hsame : lower n = n := hlower fun c hc => by
      have hmem : toAsciiLowercase c ∈ lower n := List.mem_map_of_mem hc
      rw [hshown] at hmem
      exact Or.inr (Ipv4Addr.display_chars hmem)
    rwa [hsame] at hsome
  · intro hsome
    obtain ⟨a, ha⟩ := Option.isSome_iff_exists.mp hsome
    have hshown := Ipv4Addr.parse_eq_some.mp ha
    rwa [hlower fun c hc => Or.inl (Ipv4Addr.display_chars (hshown ▸ hc))]

/-- The name of a record is read as its name when it is no dotted quad. -/
theorem ofValue_recordValue (h : Named cfg names) (hname : name ∈ names) (rec : DnsRecord) :
    HostRecord.ofValue (cfg.recordValue name rec).toList =
        ⟨[name.toList], [cfg.dnsRecordIp rec]⟩ ↔
      (Ipv4Addr.parse name.toList).isSome = false := by
  have haddr : Ipv4Addr.parse (cfg.dnsRecordIp rec).display.toList = some (cfg.dnsRecordIp rec) :=
    Ipv4Addr.parse_eq_some.mpr rfl
  rw [HostRecord.ofValue, h.splitOn_recordValue hname]
  cases hparse : Ipv4Addr.parse name.toList <;> simp [hparse, haddr]

/-- The lines read as a `host-record` are those of the records. -/
theorem filterMap_confLines (h : Named cfg names) (henabled : cfg.dns.enabled = true) :
    (confLines cfg iface leasefile pidfile).filterMap
        (fun line => HostRecord.ofDirective (Directive.ofLine line.toList)) =
      (names.zip cfg.dns.records).map fun p =>
        HostRecord.ofValue (cfg.recordValue p.1 p.2).toList := by
  have hread : (directives cfg iface leasefile pidfile names).filterMap
        (fun d => HostRecord.ofDirective (Directive.ofLine d.line.toList)) =
      (directives cfg iface leasefile pidfile names).filterMap HostRecord.ofDirective :=
    List.filterMap_congr fun d hd => by rw [Directive.ofLine_line (keyed_of_mem_directives hd)]
  have hfixed : (fixedDirectives cfg iface leasefile pidfile).filterMap HostRecord.ofDirective =
      [] := by
    simp [fixedDirectives, HostRecord.ofDirective]
  rw [confLines_eq h, List.filterMap_map]
  refine hread.trans ?_
  rw [directives, List.filterMap_append, hfixed, List.nil_append, dnsDirectives, if_pos henabled,
    List.filterMap_cons_none (by simp [HostRecord.ofDirective]), List.filterMap_map,
    ← List.filterMap_eq_map]
  exact List.filterMap_congr fun p _ => by simp [HostRecord.ofDirective]

theorem Named.ofValue_eq_iff {p : String × DnsRecord} (h : Named cfg names)
    (hp : p ∈ names.zip cfg.dns.records) :
    HostRecord.ofValue (cfg.recordValue p.1 p.2).toList = ⟨[p.1.toList], [cfg.dnsRecordIp p.2]⟩ ↔
      ¬ IsQuad p.2.name := by
  rw [ofValue_recordValue h (List.of_mem_zip hp).1, Bool.eq_false_iff, ne_eq,
    parse_normalizeDnsName (h.of_mem_zip hp)]

theorem RecordsReadBack.not_isQuad (h : RecordsReadBack cfg) (henabled : cfg.dns.enabled = true)
    {rec : DnsRecord} (hrec : rec ∈ cfg.dns.records) : ¬ IsQuad rec.name := by
  obtain ⟨names, hnamed, hread⟩ := h
  have hlines := hread "" "" ""
  rw [filterMap_confLines hnamed henabled] at hlines
  rw [← hnamed.map_snd_zip] at hrec
  obtain ⟨p, hp, rfl⟩ := List.mem_map.mp hrec
  exact (hnamed.ofValue_eq_iff hp).mp (List.map_inj_left.mp hlines p hp)

/-- **The records are read back** exactly when the name of none is a dotted quad.  The
configuration passed its validation (`h`) and serves names (`henabled`); without the latter no
`host-record` line is written. -/
theorem recordsReadBack_iff (cfg : Config) (h : cfg.Valid) (henabled : cfg.dns.enabled = true) :
    RecordsReadBack cfg ↔ ∀ rec ∈ cfg.dns.records, ¬ IsQuad rec.name := by
  constructor
  · exact fun hread rec hrec => hread.not_isQuad henabled hrec
  · intro hall
    obtain ⟨names, hnamed, -⟩ := h.named
    refine ⟨names, hnamed, fun iface leasefile pidfile => ?_⟩
    rw [filterMap_confLines hnamed henabled]
    exact List.map_congr_left fun p hp =>
      (hnamed.ofValue_eq_iff hp).mpr (hall p.2 (List.of_mem_zip hp).2)

theorem names_readBack :
    RecordsReadBack
      { dns := { enabled := true, records := [⟨"10.0.0.lan", none⟩, ⟨"7", none⟩] } } :=
  (recordsReadBack_iff
    { dns := { enabled := true, records := [⟨"10.0.0.lan", none⟩, ⟨"7", none⟩] } }
    (by decide) rfl).mpr (by decide)

/-- A record for the name `10.0.0.1` is accepted, and its line has two addresses and no
name. -/
theorem quad_accepted :
    Config.Valid { dns := { enabled := true, records := [⟨"10.0.0.1", none⟩] } } ∧
      HostRecord.ofValue "10.0.0.1,192.168.0.1".toList =
        ⟨[], [⟨10, 0, 0, 1⟩, ⟨192, 168, 0, 1⟩]⟩ ∧
      ¬ RecordsReadBack { dns := { enabled := true, records := [⟨"10.0.0.1", none⟩] } } :=
  ⟨by decide, by decide, fun h => h.not_isQuad rfl List.mem_cons_self (by decide)⟩

end Names

end Micronet

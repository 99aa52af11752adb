import Micronet.DnsName
import Micronet.Sticky
import Micronet.DottedQuad
import Micronet.Settings

/-!
# The directives of dnsmasq.conf

The texts that an operator writes reach the file through their checks, and none of them can
end a line or a value: what is in the file is what `directives` lists.
-/
namespace Micronet
open RustText Settings

/-! ## Names of the records -/

/-- `names` are the normalised names of the records, in order. -/
def Named (cfg : Config) (names : List String) : Prop :=
  cfg.dns.records.map (fun rec => normalizeDnsName rec.name) = names.map Except.ok

/-- What a normalised name is written with. -/
def isHostNameChar (c : Char) : Bool :=
  ('a' ≤ c && c ≤ 'z') || ('0' ≤ c && c ≤ '9') || c == '.' || c == '-'

section Records
variable {cfg : Config} {names : List String}

/-- The names seen are kept, so each later name differs from them. -/
theorem checkRecords_eq_ok {seen : List String} {records : List DnsRecord} :
    Config.checkRecords seen records = .ok () ↔
      ∃ names : List String,
        records.map (fun rec => normalizeDnsName rec.name) = names.map Except.ok ∧
        names.Nodup ∧ ∀ name ∈ names, name ∉ seen := by
  induction records generalizing seen with
  | nil =>
    rw [Config.checkRecords]
    exact ⟨fun _ => ⟨[], rfl, List.nodup_nil, by simp⟩, fun _ => rfl⟩
  | cons rec records ih =>
    rw [Config.checkRecords, Config.bind_ok_iff]
    constructor
    · rintro ⟨name, hname, hrest⟩
      rw [Config.reject_bind_iff, ih] at hrest
      obtain ⟨hseen, names, hnames, hnodup, hnot⟩ := hrest
      refine ⟨name :: names, ?_, List.nodup_cons.mpr ⟨?_, hnodup⟩, ?_⟩
      · rw [List.map_cons, List.map_cons, hname, hnames]
      · exact fun hmem => hnot name hmem (by simp)
      · rintro other (_ | ⟨_, hother⟩)
        · exact hseen
        · exact fun hmem => hnot other hother (List.mem_append_left _ hmem)
    · rintro ⟨names, hnames, hnodup, hnot⟩
      cases names with
      | nil => cases hnames
      | cons name names =>
        obtain ⟨hname, hnames⟩ := List.cons.inj hnames
        obtain ⟨hfresh, hnodup⟩ := List.nodup_cons.mp hnodup
        refine ⟨name, hname, Config.reject_bind_iff.mpr ⟨hnot name List.mem_cons_self, ?_⟩⟩
        refine ih.mpr ⟨names, hnames, hnodup, fun other hother hmem => ?_⟩
        rcases List.mem_append.mp hmem with hmem | hmem
        · exact hnot other (List.mem_cons_of_mem _ hother) hmem
        · obtain rfl := List.mem_singleton.mp hmem
          exact hfresh hother

theorem Config.Valid.named (h : cfg.Valid) : ∃ names, Named cfg names ∧ names.Nodup := by
  have hdns := h.dns
  rw [Config.validateDns, Config.reject_bind_iff, checkRecords_eq_ok] at hdns
  obtain ⟨-, names, hnames, hnodup, -⟩ := hdns
  exact ⟨names, hnames, hnodup⟩

theorem Named.length_eq (h : Named cfg names) : names.length = cfg.dns.records.length := by
  have hlen := congrArg List.length h
  rw [List.length_map, List.length_map] at hlen
  exact hlen.symm

/-- A record with a normalised name has its line. -/
theorem hostRecord_eq_some {rec : DnsRecord} {name : String}
    (h : normalizeDnsName rec.name = .ok name) :
    cfg.hostRecord rec = some s!"host-record={name},{(cfg.dnsRecordIp rec).display}" := by
  rw [Config.hostRecord, h]

theorem filterMap_hostRecord {records : List DnsRecord}
    (h : records.map (fun rec => normalizeDnsName rec.name) = names.map Except.ok) :
    records.filterMap cfg.hostRecord = (names.zip records).map fun p =>
      s!"host-record={p.1},{(cfg.dnsRecordIp p.2).display}" := by
  induction records generalizing names with
  | nil =>
    rw [List.zip_nil_right]
    rfl
  | cons rec records ih =>
    cases names with
    | nil => cases h
    | cons name names =>
      obtain ⟨hname, hnames⟩ := List.cons.inj h
      rw [List.filterMap_cons_some (hostRecord_eq_some hname), ih hnames, List.zip_cons_cons,
        List.map_cons]

theorem Named.of_mem_zip {p : String × DnsRecord} (h : Named cfg names)
    (hp : p ∈ names.zip cfg.dns.records) : normalizeDnsName p.2.name = .ok p.1 := by
  obtain ⟨i, hi, rfl⟩ := List.mem_iff_getElem.mp hp
  have hget := congrArg (·[i]?) h
  rw [List.length_zip] at hi
  simp only [List.getElem?_map] at hget
  rw [List.getElem?_eq_getElem (by omega), List.getElem?_eq_getElem (by omega)] at hget
  rw [List.getElem_zip]
  exact Option.some.inj hget

/-- No record is left out. -/
theorem Named.map_snd_zip (h : Named cfg names) :
    (names.zip cfg.dns.records).map Prod.snd = cfg.dns.records :=
  List.map_snd_zip (Nat.le_of_eq h.length_eq.symm)

theorem Named.isName {name : String} (h : Named cfg names) (hname : name ∈ names) :
    ∃ n, IsName n ∧ name = String.ofList (lower n) := by
  have hmem : Except.ok name ∈ names.map (Except.ok (ε := Error)) := List.mem_map_of_mem hname
  rw [← h] at hmem
  obtain ⟨rec, -, hrec⟩ := List.mem_map.mp hmem
  obtain ⟨n, k, hn, -, rfl⟩ := normalizeDnsName_eq_ok.mp hrec
  exact ⟨n, hn, rfl⟩

theorem isHostNameChar_lower {n : List Char} {c : Char} (h : IsName n) (hc : c ∈ lower n) :
    isHostNameChar c = true := by
  obtain ⟨d, hd, rfl⟩ := List.mem_map.mp hc
  rcases h.chars hd with rfl | hd
  · decide
  · exact forall_labelChar (P := fun d => isHostNameChar (toAsciiLowercase d) = true)
      (by decide) hd

end Records

/-! ## Values -/

section Values
variable {cfg : Config} {names : List String} {a : Ipv4Addr} {c : Char}

theorem not_mem_display (h : c.isDigit = false ∧ c ≠ '.') : c ∉ a.display.toList := by
  intro hc
  rcases Ipv4Addr.display_chars hc with hdigit | hdot
  · rw [h.1] at hdigit
    cases hdigit
  · exact h.2 hdot

/-- An accepted duration is written with digits, its unit and the `+` of an integer. -/
theorem sticky_chars {s : String} {secs : Nat} (h : parseSticky s = .ok secs)
    (hc : c ∈ trim s.toList) : c.isDigit = true ∨ c ∈ ['+', 's', 'm', 'h', 'd', 'w'] := by
  have hdur : ∀ t, IsDuration t secs → c ∈ t →
      c.isDigit = true ∨ c ∈ ['+', 's', 'm', 'h', 'd', 'w'] := by
    rintro t ⟨ds, u, mul, rfl, hu, hds, -⟩ hc
    rcases List.mem_append.mp hc with hc | hc
    · exact Or.inl (hds.digits c hc)
    · have hletters : ∀ p ∈ units, ∀ d ∈ p.1, d ∈ ['+', 's', 'm', 'h', 'd', 'w'] := by
        simp [units]
      exact Or.inr (hletters _ hu c hc)
  rcases parseSticky_eq_ok.mp h with hs | ⟨t, ht, hs⟩
  · exact hdur _ hs hc
  · rw [ht] at hc
    rcases List.mem_cons.mp hc with rfl | hc
    · exact Or.inr List.mem_cons_self
    · exact hdur t hs hc

theorem Config.Valid.not_mem_sticky (h : cfg.Valid)
    (hc : c.isDigit = false ∧ c ∉ ['+', 's', 'm', 'h', 'd', 'w']) :
    c ∉ trim cfg.dhcp.sticky.toList := by
  obtain ⟨secs, hsecs⟩ := h.sticky
  intro hmem
  rcases sticky_chars hsecs hmem with hdigit | hletter
  · rw [hc.1] at hdigit
    cases hdigit
  · exact hc.2 hletter

theorem Named.chars {name : String} (h : Named cfg names) (hname : name ∈ names) :
    name ≠ "" ∧ ∀ c ∈ name.toList, isHostNameChar c = true := by
  obtain ⟨n, hn, rfl⟩ := h.isName hname
  constructor
  · intro hempty
    have hnil : lower n = [] := by
      rw [← String.toList_ofList (l := lower n), hempty]
      rfl
    exact hn.ne_nil (List.map_eq_nil_iff.mp hnil)
  · intro c hc
    rw [String.toList_ofList] at hc
    exact isHostNameChar_lower hn hc

theorem Named.not_mem {name : String} (h : Named cfg names) (hname : name ∈ names)
    (hc : isHostNameChar c = false) : c ∉ name.toList := by
  intro hmem
  rw [(h.chars hname).2 c hmem] at hc
  cases hc

end Values

/-! ## The file -/

namespace Config
variable (cfg : Config)

/-- The value of `dhcp-range`. -/
def rangeValue : String :=
  s!"{cfg.rangeStartAddr.display},{cfg.rangeEndAddr.display},{cfg.gateway.subnet.netmask.display},{
    String.ofList (trim cfg.dhcp.sticky.toList)}"

/-- The value of a `host-record`. -/
def recordValue (name : String) (rec : DnsRecord) : String :=
  s!"{name},{(cfg.dnsRecordIp rec).display}"

end Config

/-- The ten directives of every gateway. -/
def fixedDirectives (cfg : Config) (iface leasefile pidfile : String) : List Directive :=
  let gw := cfg.gateway.ip.display
  [ .comment " generated by micronet — do not edit",
    .setting "interface" iface,
    .flag "bind-interfaces",
    .setting "listen-address" gw,
    .setting "dhcp-range" cfg.rangeValue,
    .setting "dhcp-option" s!"option:router,{gw}",
    .setting "dhcp-option" s!"option:dns-server,{gw}",
    .setting "dhcp-leasefile" leasefile,
    .setting "pid-file" pidfile,
    .flag "dhcp-authoritative" ]

/-- With DNS enabled, the local domain and each record under its name. -/
def dnsDirectives (cfg : Config) (names : List String) : List Directive :=
  if cfg.dns.enabled then
    .setting "local" "/lan/" :: (names.zip cfg.dns.records).map fun p =>
      .setting "host-record" (cfg.recordValue p.1 p.2)
  else []

def directives (cfg : Config) (iface leasefile pidfile : String) (names : List String) :
    List Directive :=
  fixedDirectives cfg iface leasefile pidfile ++ dnsDirectives cfg names

section File
variable {cfg : Config} {names : List String} {iface leasefile pidfile : String}

theorem toString_self (s : String) : toString s = s := rfl

theorem dnsLines_eq (h : Named cfg names) :
    cfg.dnsLines = (dnsDirectives cfg names).map Directive.line := by
  have hrecord : ∀ (name : String) (rec : DnsRecord),
      s!"host-record={name},{(cfg.dnsRecordIp rec).display}" =
        "host-record" ++ "=" ++ cfg.recordValue name rec := by
    intro name rec
    simp only [Config.recordValue, toString_self, ← String.append_assoc, String.reduceAppend]
  unfold Config.dnsLines dnsDirectives
  split
  · rw [filterMap_hostRecord h, List.map_cons, List.map_map]
    exact congrArg _ (List.map_congr_left fun p _ => hrecord p.1 p.2)
  · rfl

theorem confLines_eq (h : Named cfg names) :
    confLines cfg iface leasefile pidfile =
      (directives cfg iface leasefile pidfile names).map Directive.line := by
  rw [confLines, directives, List.map_append, dnsLines_eq h]
  refine congrArg (· ++ _) ?_
  simp only [fixedDirectives, List.map_cons, List.map_nil, Directive.line, Config.rangeValue,
    toString_self, ← String.append_assoc, String.reduceAppend]

theorem renderConf_eq (h : Named cfg names) :
    renderConf cfg iface leasefile pidfile =
      unlines ((directives cfg iface leasefile pidfile names).map Directive.line) := by
  rw [renderConf, confLines_eq h, unlines]

theorem toList_fields (a b c d : String) :
    (s!"{a},{b},{c},{d}").toList = [','].intercalate [a.toList, b.toList, c.toList, d.toList] := by
  simp [toString_self]

theorem toList_rangeValue (cfg : Config) :
    cfg.rangeValue.toList = [','].intercalate [cfg.rangeStartAddr.display.toList,
      cfg.rangeEndAddr.display.toList, cfg.gateway.subnet.netmask.display.toList,
      trim cfg.dhcp.sticky.toList] := by
  rw [Config.rangeValue, toList_fields, String.toList_ofList]

theorem toList_recordValue (cfg : Config) (name : String) (rec : DnsRecord) :
    (cfg.recordValue name rec).toList =
      [','].intercalate [name.toList, (cfg.dnsRecordIp rec).display.toList] := by
  simp [Config.recordValue, toString_self]

/-- The range is told in four fields. -/
theorem splitOn_rangeValue (h : cfg.Valid) :
    cfg.rangeValue.toList.splitOn ',' = [cfg.rangeStartAddr.display.toList,
      cfg.rangeEndAddr.display.toList, cfg.gateway.subnet.netmask.display.toList,
      trim cfg.dhcp.sticky.toList] := by
  refine (splitOn_eq_iff (by simp) ?_).mpr (toList_rangeValue cfg)
  simp only [List.forall_mem_cons]
  exact ⟨not_mem_display (by decide), not_mem_display (by decide), not_mem_display (by decide),
    h.not_mem_sticky (by decide), List.forall_mem_nil _⟩

/-- A record is told in two fields. -/
theorem Named.splitOn_recordValue {name : String} (h : Named cfg names) (hname : name ∈ names)
    (rec : DnsRecord) :
    (cfg.recordValue name rec).toList.splitOn ',' =
      [name.toList, (cfg.dnsRecordIp rec).display.toList] := by
  refine (splitOn_eq_iff (by simp) ?_).mpr (toList_recordValue cfg name rec)
  simp only [List.forall_mem_cons]
  exact ⟨h.not_mem hname (by decide), not_mem_display (by decide), List.forall_mem_nil _⟩

/-- What holds of each kind of directive holds of them all. -/
theorem forall_mem_directives {P : Directive → Prop}
    (hfixed : ∀ d ∈ fixedDirectives cfg iface leasefile pidfile, P d)
    (hlocal : P (.setting "local" "/lan/"))
    (hrecord : ∀ p ∈ names.zip cfg.dns.records,
      P (.setting "host-record" (cfg.recordValue p.1 p.2))) :
    ∀ d ∈ directives cfg iface leasefile pidfile names, P d := by
  intro d hd
  rw [directives, List.mem_append] at hd
  rcases hd with hd | hd
  · exact hfixed d hd
  · unfold dnsDirectives at hd
    split at hd
    · rcases List.mem_cons.mp hd with rfl | hd
      · exact hlocal
      · obtain ⟨p, hp, rfl⟩ := List.mem_map.mp hd
        exact hrecord p hp
    · cases hd

theorem keyed_of_mem_directives {d : Directive}
    (hd : d ∈ directives cfg iface leasefile pidfile names) : d.Keyed := by
  refine forall_mem_directives ?_ (show Directive.IsKey "local".toList by decide)
    (fun _ _ => show Directive.IsKey "host-record".toList by decide) d hd
  simp only [fixedDirectives, List.forall_mem_cons, Directive.Keyed]
  exact ⟨trivial, by decide, by decide, by decide, by decide, by decide, by decide, by decide,
    by decide, by decide, List.forall_mem_nil _⟩

theorem notMem_intercalate {c : Char} (hc : c ≠ ',') {ls : List (List Char)} (h : ∀ l ∈ ls, c ∉ l) :
    c ∉ [','].intercalate ls := by
  intro hmem
  rcases mem_intercalate hmem with hcomma | ⟨l, hl, hmem⟩
  · exact hc hcomma
  · exact h l hl hmem

theorem newline_notMem_rangeValue (h : cfg.Valid) : '\n' ∉ cfg.rangeValue.toList := by
  rw [toList_rangeValue]
  refine notMem_intercalate (by decide) ?_
  simp only [List.forall_mem_cons]
  exact ⟨not_mem_display (by decide), not_mem_display (by decide), not_mem_display (by decide),
    h.not_mem_sticky (by decide), List.forall_mem_nil _⟩

theorem Named.newline_notMem_recordValue {name : String} (h : Named cfg names)
    (hname : name ∈ names) (rec : DnsRecord) : '\n' ∉ (cfg.recordValue name rec).toList := by
  rw [toList_recordValue]
  refine notMem_intercalate (by decide) ?_
  simp only [List.forall_mem_cons]
  exact ⟨h.not_mem hname (by decide), not_mem_display (by decide), List.forall_mem_nil _⟩

theorem wellFormed_of_mem_directives {d : Directive} (h : cfg.Valid) (hnamed : Named cfg names)
    (hiface : '\n' ∉ iface.toList) (hleasefile : '\n' ∉ leasefile.toList)
    (hpidfile : '\n' ∉ pidfile.toList)
    (hd : d ∈ directives cfg iface leasefile pidfile names) : d.WellFormed := by
  have hgw : ∀ option : String, '\n' ∉ option.toList →
      '\n' ∉ (option ++ cfg.gateway.ip.display).toList := by
    intro option hoption
    rw [String.toList_append, List.mem_append]
    exact not_or.mpr ⟨hoption, not_mem_display (by decide)⟩
  -- the keys are as in `keyed_of_mem_directives`; of the values only the newline matters
  refine forall_mem_directives ?_ ⟨by decide, by decide⟩
    (fun p hp => ⟨by decide, hnamed.newline_notMem_recordValue (List.of_mem_zip hp).1 p.2⟩) d hd
  simp only [fixedDirectives, List.forall_mem_cons]
  refine ⟨?_, ⟨by decide, hiface⟩, ?_, ⟨by decide, not_mem_display (by decide)⟩,
    ⟨by decide, newline_notMem_rangeValue h⟩, ⟨by decide, hgw "option:router," (by decide)⟩,
    ⟨by decide, hgw "option:dns-server," (by decide)⟩, ⟨by decide, hleasefile⟩,
    ⟨by decide, hpidfile⟩, ?_, List.forall_mem_nil _⟩
  · show '\n' ∉ " generated by micronet — do not edit".toList
    decide
  · show Directive.IsKey "bind-interfaces".toList
    decide
  · show Directive.IsKey "dhcp-authoritative".toList
    decide

/-- The file is `directives` under `names`, line for line and read back, and the values of
the range and of the records have the fields they are written with. -/
structure FileSays (cfg : Config) (iface leasefile pidfile : String) (names : List String) :
    Prop where
  /-- `names` are the records' names in their normal form. -/
  named : Named cfg names
  /-- There is one for each record, no two are the same, and none has a character that ends a field
  or a line. -/
  names_length : names.length = cfg.dns.records.length
  names_nodup : names.Nodup
  names_chars : ∀ name ∈ names, name ≠ "" ∧ ∀ c ∈ name.toList, isHostNameChar c = true
  /-- The file is its directives, line for line. -/
  text : renderConf cfg iface leasefile pidfile =
    unlines ((directives cfg iface leasefile pidfile names).map Directive.line)
  /-- Its lines are those of the directives and no others. -/
  lines : linesOf (renderConf cfg iface leasefile pidfile) =
    (directives cfg iface leasefile pidfile names).map fun d => d.line.toList
  /-- Each line is read back as the directive it was written for. -/
  read : (linesOf (renderConf cfg iface leasefile pidfile)).map Directive.ofLine =
    directives cfg iface leasefile pidfile names
  /-- The range has four fields, and a record two. -/
  range_fields : cfg.rangeValue.toList.splitOn ',' = [cfg.rangeStartAddr.display.toList,
    cfg.rangeEndAddr.display.toList, cfg.gateway.subnet.netmask.display.toList,
    trim cfg.dhcp.sticky.toList]
  record_fields : ∀ p ∈ names.zip cfg.dns.records,
    (cfg.recordValue p.1 p.2).toList.splitOn ',' =
      [p.1.toList, (cfg.dnsRecordIp p.2).display.toList]

/-- **No text of the configuration is read as a directive of its own**, in the file of any
configuration that passed its validation (`h`).  The texts that the daemon adds are the interface
and the two paths, of which no more is asked than that none has a line break. -/
theorem renderConf_fileSays (cfg : Config) (h : cfg.Valid) (iface leasefile pidfile : String)
    (hiface : '\n' ∉ iface.toList) (hleasefile : '\n' ∉ leasefile.toList)
    (hpidfile : '\n' ∉ pidfile.toList) :
    ∃ names, FileSays cfg iface leasefile pidfile names := by
  obtain ⟨names, hnamed, hnodup⟩ := h.named
  have hwf : ∀ d ∈ directives cfg iface leasefile pidfile names, d.WellFormed := fun d =>
    wellFormed_of_mem_directives h hnamed hiface hleasefile hpidfile
  refine ⟨names, hnamed, hnamed.length_eq, hnodup, fun name hname => hnamed.chars hname,
    renderConf_eq hnamed, ?_, ?_, splitOn_rangeValue h, fun p hp => ?_⟩
  · rw [renderConf_eq hnamed, linesOf_unlines, List.map_map]
    · rfl
    · intro l hl
      obtain ⟨d, hd, rfl⟩ := List.mem_map.mp hl
      exact Directive.newline_not_mem (hwf d hd)
  · rw [renderConf_eq hnamed]
    exact map_ofLine_linesOf hwf
  · exact hnamed.splitOn_recordValue (List.of_mem_zip hp).1 p.2

/-- A configuration with two records, one in capitals and with its root dot. -/
theorem twoRecords_fileSays :
    ∃ names, FileSays
      { dns := { enabled := true,
                 records := [⟨"BigFred.lan.", none⟩, ⟨"wizard", some ⟨10, 0, 0, 1⟩⟩] } }
      "eth0" "/data/etc/dnsmasq.leases" "/data/run/dnsmasq.pid" names :=
  renderConf_fileSays
    { dns := { enabled := true,
               records := [⟨"BigFred.lan.", none⟩, ⟨"wizard", some ⟨10, 0, 0, 1⟩⟩] } }
    (by decide) "eth0" "/data/etc/dnsmasq.leases" "/data/run/dnsmasq.pid" (by decide) (by decide)
    (by decide)

end File

end Micronet

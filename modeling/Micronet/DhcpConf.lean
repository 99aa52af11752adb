import Micronet.Config

/-!
# The configuration of dnsmasq

`renderConf` writes the whole of `dnsmasq.conf` from a configuration and the chosen
interface: ten fixed lines, and with DNS enabled the local domain and one `host-record`
for each record.
-/
namespace Micronet
open RustText

namespace Config
variable (cfg : Config)

/-- The address of a record: its own, or `gateway.ip`. -/
def dnsRecordIp (rec : DnsRecord) : Ipv4Addr := rec.addr.getD cfg.gateway.ip

def rangeStartAddr : Ipv4Addr := cfg.hostAddr cfg.dhcp.rangeStart

def rangeEndAddr : Ipv4Addr := cfg.hostAddr cfg.dhcp.rangeEnd

/-- A record whose name is not one is left out; `validate` has let none pass. -/
def hostRecord (rec : DnsRecord) : Option String :=
  match normalizeDnsName rec.name with
  | .ok name => some s!"host-record={name},{(cfg.dnsRecordIp rec).display}"
  | .error _ => none

def dnsLines : List String :=
  if cfg.dns.enabled then "local=/lan/" :: cfg.dns.records.filterMap cfg.hostRecord else []

end Config

/-- The lines of a gateway's `dnsmasq.conf`. -/
def confLines (cfg : Config) (iface leasefile pidfile : String) : List String :=
  let mask := cfg.gateway.subnet.netmask.display
  let start := cfg.rangeStartAddr.display
  let stop := cfg.rangeEndAddr.display
  let gw := cfg.gateway.ip.display
  let sticky := String.ofList (trim cfg.dhcp.sticky.toList)
  [ "# generated by micronet — do not edit",
    s!"interface={iface}",
    "bind-interfaces",
    s!"listen-address={gw}",
    s!"dhcp-range={start},{stop},{mask},{sticky}",
    s!"dhcp-option=option:router,{gw}",
    s!"dhcp-option=option:dns-server,{gw}",
    s!"dhcp-leasefile={leasefile}",
    s!"pid-file={pidfile}",
    "dhcp-authoritative" ] ++ cfg.dnsLines

def renderConf (cfg : Config) (iface leasefile pidfile : String) : String :=
  String.join ((confLines cfg iface leasefile pidfile).map (· ++ "\n"))

theorem renderConf_ne_empty (cfg : Config) (iface leasefile pidfile : String) :
    renderConf cfg iface leasefile pidfile ≠ "" := by
  intro h
  have hlist := congrArg String.toList h
  simp [renderConf, confLines, String.toList_join] at hlist

end Micronet

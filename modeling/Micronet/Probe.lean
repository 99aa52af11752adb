import Micronet.NetOps
import Micronet.Timespec
import Micronet.Halting

/-!
# The DHCPDISCOVER probe

One DISCOVER is broadcast and a foreign server answers with an OFFER.  Any matching
offer is foreign, since our own dnsmasq was stopped before.  The codec of DHCP
messages is a package's: its encoder is a call of the probe, and its decoder is a
function from datagrams that the definitions take as an argument.
-/
namespace Micronet
open Interaction Prog Monotonic

/-- The sum with a timeout in seconds. -/
theorem fits_fromSecs (T : Timespec) (secs : UInt64) :
    Fits T.ticks (Duration.fromSecs secs) ↔ T.secs + secs.toNat < 2 ^ 63 := T.fits_secs secs.toNat

namespace Probe

def dhcpClientPort : UInt16 := 68

def dhcpServerPort : UInt16 := 67

/-- UDP receive timeout inside the wait. -/
def dhcpProbeRecvTimeout : Duration := 250 * 10 ^ 6

/-- The bytes a datagram is received into. -/
def bufLen : Nat := 1500

abbrev Mac : Type := Vector UInt8 6

/-! ## Messages -/

inductive Opcode
  | bootRequest
  | bootReply
  | unknown (code : UInt8)
deriving DecidableEq, Repr

inductive HType
  | eth
  | other (code : UInt8)
deriving DecidableEq, Repr

inductive MessageType
  | discover
  | offer
  | other (code : UInt8)
deriving DecidableEq, Repr

inductive OptionCode
  | subnetMask
  | router
  | domainNameServer
deriving DecidableEq, Repr

/-- What the probe writes and reads of a DHCP message. -/
structure DhcpMessage where
  opcode : Opcode := .bootRequest
  htype : HType := .eth
  hlen : UInt8
  xid : UInt32
  broadcast : Bool := false
  /-- The first `hlen` bytes of the field. -/
  chaddr : List UInt8
  messageType : Option MessageType := none
  serverIdentifier : Option Ipv4Addr := none
  parameterRequestList : Option (List OptionCode) := none
deriving DecidableEq, Repr

/-- The decoder of the package; a datagram need not be a message. -/
abbrev Decoder : Type := List UInt8 → Option DhcpMessage

/-- The message of `encode_discover`. -/
def discover (chaddr : Mac) (xid : UInt32) : DhcpMessage where
  opcode := .bootRequest
  htype := .eth
  hlen := 6
  xid
  broadcast := true
  chaddr := chaddr.toList
  messageType := some .discover
  parameterRequestList := some [.subnetMask, .router, .domainNameServer]

/-- What is needed of a validated DHCPOFFER. -/
structure OfferView where
  serverId : Option Ipv4Addr
deriving DecidableEq, Repr

/-- Decode a DHCPOFFER that matches our DISCOVER. -/
def decodeMatchingOffer (decode : Decoder) (buf : List UInt8) (xid : UInt32) (chaddr : Mac) :
    Option OfferView := do
  let msg ← decode buf
  if msg.opcode ≠ .bootReply then none
  else if msg.htype ≠ .eth then none
  else if msg.hlen ≠ 6 then none
  else if msg.xid ≠ xid then none
  else if msg.chaddr.length < 6 ∨ msg.chaddr.take 6 ≠ chaddr.toList then none
  else if msg.messageType ≠ some .offer then none
  else some ⟨msg.serverIdentifier⟩

/-- The source of a datagram. -/
inductive SocketAddr
  | v4 (ip : Ipv4Addr) (port : UInt16)
  | v6 (ip : BitVec 128) (port : UInt16)
deriving DecidableEq, Repr

def unspecified : Ipv4Addr := ⟨0, 0, 0, 0⟩

def udpSrcV4 : SocketAddr → Ipv4Addr
  | .v4 ip _ => ip
  | .v6 _ _ => unspecified

/-- Server-id, or a non-zero UDP source. -/
def offerIdentity (serverId : Option Ipv4Addr) (udpSrc : Ipv4Addr) : Option Ipv4Addr :=
  match serverId with
  | some ip => some ip
  | none => if udpSrc ≠ unspecified then some udpSrc else none

/-- The datagram is an offer to us, from someone. -/
def isForeignOffer (decode : Decoder) (xid : UInt32) (mac : Mac) (buf : List UInt8)
    (src : SocketAddr) : Bool :=
  match decodeMatchingOffer decode buf xid mac with
  | some offer => (offerIdentity offer.serverId (udpSrcV4 src)).isSome
  | none => false

/-! ## Calls -/

/-- What `recv_from` returns. -/
inductive Received
  | datagram (buf : List UInt8) (src : SocketAddr)
  /-- `WouldBlock` or `TimedOut`. -/
  | timedOut
  | failed (e : String)
deriving DecidableEq, Repr

/-- What the probe asks of sysfs, of the clock, of the package and of its socket; a
socket's error is its text. -/
inductive ProbeCall
  /-- Read MAC from sysfs. -/
  | readMac (iface : String)
  /-- The nanoseconds of the wall clock, or 1. -/
  | xidNow
  | encode (msg : DhcpMessage)
  | socket
  | setReuseAddress
  | setBroadcast
  | setReadTimeout (timeout : Duration)
  | bindDevice (iface : String)
  | bind (port : UInt16)
  /-- Broadcast. -/
  | sendTo (pkt : List UInt8) (port : UInt16)
  | now
  | recvFrom
deriving DecidableEq

abbrev ProbeCall.Ret : ProbeCall → Type
  | .readMac _ => Except Error Mac
  | .xidNow => UInt32
  | .encode _ => Except String (List UInt8)
  | .socket | .setReuseAddress | .setBroadcast | .setReadTimeout _ | .bindDevice _ | .bind _
  | .sendTo _ _ => Except String Unit
  | .now => Nat
  | .recvFrom => Received

abbrev ProbeSig : Signature := ⟨ProbeCall, ProbeCall.Ret⟩

/-- Programs of the probe: they can fail, and they can halt. -/
abbrev ProbeM (α : Type) : Type := ExceptT Error (ExceptT Halt (Prog ProbeSig)) α

abbrev probeCall (c : ProbeCall) : ExceptT Halt (Prog ProbeSig) c.Ret :=
  liftM (call (S := ProbeSig) c)

/-- A failed call, as an error of the probe: `what: e`. -/
def context {α : Type} (what : String) (x : ExceptT Halt (Prog ProbeSig) (Except String α)) :
    ProbeM α :=
  ExceptT.mk do
    match ← x with
    | .ok a => return .ok a
    | .error e => return .error (.dhcpProbe (what ++ ": " ++ e))

def encodeDiscover (chaddr : Mac) (xid : UInt32) : ProbeM (List UInt8) :=
  context "DHCP encode" (probeCall (.encode (discover chaddr xid)))

/-- The socket on the interface, up to the broadcast of the DISCOVER. -/
def sendDiscover (iface : String) (pkt : List UInt8) : ProbeM Unit := do
  context "dhcp socket" (probeCall .socket)
  context "SO_REUSEADDR" (probeCall .setReuseAddress)
  context "SO_BROADCAST" (probeCall .setBroadcast)
  context "SO_RCVTIMEO" (probeCall (.setReadTimeout dhcpProbeRecvTimeout))
  context ("SO_BINDTODEVICE " ++ iface) (probeCall (.bindDevice iface))
  context "bind :68" (probeCall (.bind dhcpClientPort))
  context "DHCPDISCOVER send" (probeCall (.sendTo pkt dhcpServerPort))

/-- The set-up of the socket and the send, when they succeed. -/
def ProbeCall.Succeeds : (c : ProbeCall) → c.Ret → Prop
  | .socket, r | .setReuseAddress, r | .setBroadcast, r | .setReadTimeout _, r
  | .bindDevice _, r | .bind _, r | .sendTo _ _, r => r = .ok ()
  | _, _ => False

section Exec
variable {σ α : Type} {E : Env ProbeSig σ} {s t : σ}

theorem exec_context {a : α} {what : String} {x : ExceptT Halt (Prog ProbeSig) (Except String α)}
    (h : x.run.Exec E s (.ok (.ok a)) t) : (context what x).run.run.Exec E s (.ok (.ok a)) t :=
  execE_bind.mpr (Or.inl ⟨.ok a, t, h, rfl, rfl⟩)

theorem exec_sendDiscover {iface : String} {pkt : List UInt8}
    (h : ∀ (c : ProbeCall) (r : c.Ret), c.Succeeds r → (probeCall c).run.Exec E s (.ok r) s) :
    (sendDiscover iface pkt).run.run.Exec E s (.ok (.ok ())) s := by
  refine exec_run_bind (exec_context (h .socket (.ok ()) rfl)) ?_
  refine exec_run_bind (exec_context (h .setReuseAddress (.ok ()) rfl)) ?_
  refine exec_run_bind (exec_context (h .setBroadcast (.ok ()) rfl)) ?_
  refine exec_run_bind (exec_context (h (.setReadTimeout _) (.ok ()) rfl)) ?_
  refine exec_run_bind (exec_context (h (.bindDevice iface) (.ok ()) rfl)) ?_
  refine exec_run_bind (exec_context (h (.bind _) (.ok ()) rfl)) ?_
  exact exec_context (h (.sendTo pkt _) (.ok ()) rfl)

end Exec

/-- The wait for an offer, for `n` datagrams or timeouts. -/
def awaitOffer (decode : Decoder) (xid : UInt32) (mac : Mac) (deadline : Nat) : Nat → ProbeM Bool
  | 0 => liftM (throw .cut : ExceptT Halt (Prog ProbeSig) Bool)
  | n + 1 => do
    let now ← probeCall .now
    if now < deadline then
      match ← probeCall .recvFrom with
      | .datagram buf src =>
        if isForeignOffer decode xid mac (buf.take bufLen) src then return true
        else awaitOffer decode xid mac deadline n
      | .timedOut => awaitOffer decode xid mac deadline n
      | .failed e => throw (.dhcpProbe ("dhcp recv: " ++ e))
    else
      return false

/-- Broadcast DHCPDISCOVER on `iface`; true if a DHCPOFFER arrives. -/
def probeForeignDhcp (decode : Decoder) (n : Nat) (iface : String) (mac : Mac)
    (timeout : Duration) : ProbeM Bool := do
  let xid ← probeCall .xidNow
  let pkt ← encodeDiscover mac xid
  sendDiscover iface pkt
  let now ← probeCall .now
  let deadline ← (plus now timeout : ExceptT Halt (Prog ProbeSig) Nat)
  awaitOffer decode xid mac deadline n

/-- `LiveGateway::probe_foreign_dhcp`. -/
def liveProbe (decode : Decoder) (n : Nat) (iface : String) (timeout : Duration) :
    ProbeM Bool := do
  let mac ← ExceptT.mk (probeCall (.readMac iface))
  probeForeignDhcp decode n iface mac timeout

end Probe
end Micronet

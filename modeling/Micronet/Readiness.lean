import Micronet.LiveGateway

/-!
# What the probe and the reload find

The verdict of a DHCPDISCOVER is one about the others on the LAN only if none of our own
servers can answer it, and one about the chosen cable only if no other is connected.  In every
run, whatever fails and whenever dnsmasq dies, each probe is sent with no dnsmasq of ours
running, from an interface that is up and has no dhclient, while every other physical Ethernet
is down, and has no address if no flush fails.  Nor does a reload ever meet a running dnsmasq of
ours.
-/
namespace Micronet
open Interaction Prog Net

/-- What a call of the daemon finds. -/
def CtlCall.Ready (flushes : Prop) : CtlCall → Net × DhcpHost → Prop
  | .gw (.probeForeignDhcp k _), s => s.2.Down ∧ s.1.up k = true ∧
      s.1.dhclient k = false ∧ Isolated flushes s.1.ethernets k s.1
  | .gw (.dhcpReloadOrRestart _ _), s => s.2.Down
  | _, _ => True

theorem CtlCall.Quiet.ready {flushes : Prop} {c : CtlCall} (h : c.Quiet) (s : Net × DhcpHost) :
    c.Ready flushes s := by
  rcases c with c | c
  · trivial
  · cases c <;> first | exact h.elim | trivial

/-- Every call so far was ready, and the next one can be told to be. -/
structure Prepared (flushes : Prop) (x : Noted Net) : Prop where
  /-- The interfaces can be listed. -/
  listed : x.1.1.listError = none
  /-- The pidfile names what runs, and it has read the conf. -/
  current : x.1.2.Current
  /-- Each call was ready in the state it was made in. -/
  ready : ∀ e ∈ x.2, e.op.Ready flushes e.pre

section Call
variable {F : NetCall → Prop} {U : NetCall → Net → Prop} {flushes : Prop} {paths : DhcpPaths}
  {x y : Noted Net}

theorem DhcpHost.current_of_env {c : GwCall} {r : c.Ret} {s t : DhcpHost} (hs : s.Current)
    (h : LiveGateway.env paths c s r t) : t.Current := by
  by_cases hc : c.reloads = false
  · exact (outlives_of_not_reloads hc hs h).current
  · cases c with
    | dhcpReloadOrRestart cfg iface =>
      obtain ⟨hok, herr⟩ := reload_cases hs h
      cases r with
      | ok _ => exact (hok rfl).1
      | error e => exact (herr rfl).1
    | _ => exact absurd rfl hc

theorem Prepared.note {c : CtlCall} {r : c.Ret} (hx : Prepared flushes x)
    (hc : c.Ready flushes x.1) : ∀ e ∈ x.2 ++ [⟨c, x.1, r⟩], e.op.Ready flushes e.pre := by
  intro e he
  rcases List.mem_append.mp he with he | he
  · exact hx.ready e he
  · rw [List.mem_singleton.mp he]
    exact hc

theorem Prepared.afterNet {c : NetCall} {r : c.Ret} {n : Net} (hx : Prepared flushes x)
    (h : Net.slack F U c x.1.1 r n) : Prepared flushes ((n, x.1.2), x.2 ++ [⟨.net c, x.1, r⟩]) := by
  have hE : ctlEnv (Net.slack F U) (fun _ (_ : Unit) _ _ => True) (.net c) (x.1.1, ()) r (n, ()) :=
    ⟨h, rfl⟩
  exact ⟨(ctlEnv_listing hE).2.trans hx.listed, hx.current, hx.note trivial⟩

theorem Prepared.afterGw {c : GwCall} {r : c.Ret} {g : DhcpHost} (hx : Prepared flushes x)
    (hc : CtlCall.Ready flushes (.gw c) x.1) (h : LiveGateway.env paths c x.1.2 r g) :
    Prepared flushes ((x.1.1, g), x.2 ++ [⟨.gw c, x.1, r⟩]) :=
  ⟨hx.listed, DhcpHost.current_of_env hx.current h, hx.note hc⟩

theorem Prepared.step {c : CtlCall} {r : c.Ret} (hc : c.Ready flushes x.1) (hx : Prepared flushes x)
    (h : (ctlEnv (Net.slack F U) (LiveGateway.env paths)).logged c x r y) : Prepared flushes y := by
  obtain ⟨⟨n, g⟩, l⟩ := y
  obtain ⟨hE, rfl⟩ := h
  rcases c with c | c
  · obtain ⟨hE, rfl⟩ := hE
    exact hx.afterNet hE
  · obtain ⟨hE, rfl⟩ := hE
    exact hx.afterGw hc hE

/-- The interface is the only one that is up. -/
def Alone (flushes : Prop) (k : String) (n : Net) : Prop :=
  Isolated flushes n.ethernets k n ∧ n.up k = true

theorem Alone.step {k : String} {c : NetCall} {r : c.Ret} {n n' : Net}
    (hc : CtlCall.OnlyOn k (.net c)) (hn : Alone flushes k n) (h : Net.slack F U c n r n') :
    Alone flushes k n' := by
  have hE : ctlEnv (Net.slack F U) (fun _ (_ : Unit) _ _ => True) (.net c) (n, ()) r (n', ()) :=
    ⟨h, rfl⟩
  have hkept := onlyOn_keeps (s := (n, ())) hc hn hE
  unfold Alone
  rw [(ctlEnv_listing hE).1]
  exact hkept

/-- While the daemon waits, the network stays as it is; processes may end and start. -/
def Rests (s t : Net × DhcpHost) : Prop := t.1 = s.1 ∧ s.2.Drifts t.2

variable {mode : Mode} {iface : String} {cfg : Config} {m m' : Mem}

theorem Prepared.rest (hx : Prepared flushes x) (h : Rests x.1 y.1 ∧ y.2 = x.2) :
    Prepared flushes y := by
  obtain ⟨⟨hnet, hdrift⟩, hlog⟩ := h
  refine ⟨?_, DhcpHost.survives_current _ _ hx.current hdrift, ?_⟩
  · rw [hnet]
    exact hx.listed
  · rw [hlog]
    exact hx.ready

end Call

/-! ## Runs on the machine -/

end Micronet

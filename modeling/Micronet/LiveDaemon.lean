import Micronet.Machine
import Micronet.DaemonRun

/-!
# The daemon on its machine

`liveExt` is the outside of a daemon whose `apply` is the program itself, on the
same `NetOps` and `GatewayCtl` as the calls of its ticks.  `liveLog` also writes
every such call down, those inside `apply` included, with the state it was made in.
A handler of the calls gives concrete runs (`run_of_handler`).
-/
namespace Micronet
open Interaction Prog

variable {σ ω : Type}

/-- The outside over an environment `W` of the two traits; at every other call
something may happen that `D` allows. -/
def liveExt (W : Env CtlSig σ) (D : σ → σ → Prop) : Env ExtSig σ
  | .apply cfg, s, r, t => (applyWith cfg).run.Exec W s r t
  | .ctl c, s, r, t => W c s r t
  | .now, s, _, t | .loadJson, s, _, t | .loadOrCreateJson, s, _, t | .serve, s, _, t
  | .spawnWatch, s, _, t | .installSignals, s, _, t | .stopRequested, s, _, t
  | .recvEvent, s, _, t | .reloadPending, s, _, t => D s t

/-- The same outside, with the calls of the two traits written down. -/
def liveLog (W : Env CtlSig σ) (D : σ → σ → Prop) : Env ExtSig (σ × Log CtlSig σ) :=
  liveExt W.logged fun s t => D s.1 t.1 ∧ t.2 = s.2

/-- In a pause nothing is called and something may happen. -/
theorem Paused.drift {W : Env CtlSig σ} {D : σ → σ → Prop} {s t : σ}
    (h : Paused (liveExt W D) s t) : D s t := by
  obtain ⟨c, r, hc, hX⟩ := h
  cases c with
  | apply cfg => exact hc.elim
  | ctl c => exact hc.elim
  | loadJson => exact hc.elim
  | loadOrCreateJson => exact hc.elim
  | _ => exact hX

/-- An apply adds to the log, whatever is there. -/
theorem liveLog_apply {W : Env CtlSig σ} {D : σ → σ → Prop} {cfg : Config}
    {out : Except Error Status} {w w' : σ × Log CtlSig σ}
    (h : liveLog W D (.apply cfg) w out w') :
    ∃ seg, w'.2 = w.2 ++ seg ∧ (applyWith cfg).run.Exec W.logged (w.1, []) out (w'.1, seg) := by
  obtain ⟨seg, hl, hseg⟩ := exec_logged_split h
  exact ⟨seg, hl, by simpa using hseg []⟩

/-! ## Computing runs -/

def daemonHandler (H : Handler ExtSig ω) : Handler DaemonSig (Mem × ω)
  | .mem f, s => (s.1, f s.1, s.2)
  | .ext c, s => ((H c s.2).1, s.1, (H c s.2).2)

theorem daemonHandler_implements {H : Handler ExtSig ω} {X : Env ExtSig ω}
    (hH : H.Implements X) : (daemonHandler H).Implements (daemonEnv X) := by
  intro op s
  cases op with
  | mem f => exact ⟨rfl, rfl⟩
  | ext c => exact ⟨hH c s.2, rfl⟩

/-- The start, with its answer. -/
def boots (H : Handler ExtSig ω) (w₀ : ω) : Except Error Unit × Mem × ω :=
  start.run.run (daemonHandler H) (.new {} .empty, w₀)

/-- One step. -/
def record (H : Handler ExtSig ω) (k : StepKind) (s : Mem × ω) : Record ω :=
  let t := (k.prog.run (daemonHandler H.logged) (s.1, s.2, [])).2
  ⟨k, s, t.2.2, t.1, t.2.1⟩

/-- The steps of `ks`, one after the other. -/
def records (H : Handler ExtSig ω) : Mem × ω → List StepKind → List (Record ω)
  | _, [] => []
  | s, k :: ks => record H k s :: records H (record H k s).after ks

/-- Where they end. -/
def final (H : Handler ExtSig ω) : Mem × ω → List StepKind → Mem × ω
  | s, [] => s
  | s, k :: ks => final H (record H k s).after ks

theorem run_records {H : Handler ExtSig ω} {X : Env ExtSig ω} (hH : H.Implements X) {w₀ : ω}
    {h : List (Record ω)} {s : Mem × ω} (hrun : Run X w₀ h s) (ks : List StepKind) :
    Run X w₀ (h ++ records H s ks) (final H s ks) := by
  induction ks generalizing h s with
  | nil => rwa [records, List.append_nil]
  | cons k ks ih =>
    have hstep := hrun.step k ((daemonHandler_implements hH.logged).exec k.prog (s.1, s.2, []))
    have := ih hstep
    rwa [List.append_assoc] at this

/-- **The computed steps are a run.** -/
theorem run_of_handler {H : Handler ExtSig ω} {X : Env ExtSig ω}
    (hH : H.Implements X) {w₀ : ω} (hstart : (boots H w₀).1 = .ok ()) (ks : List StepKind) :
    Run X w₀ (records H (boots H w₀).2 ks) (final H (boots H w₀).2 ks) := by
  have hexec := (daemonHandler_implements hH).exec start.run (.new {} .empty, w₀)
  exact run_records hH (.start (hstart ▸ hexec)) ks

/-- A handler of the two traits beside a clock that stands still, one configuration
file and no requests. -/
def liveHandler (H : Handler CtlSig σ) (json : Except Error Config) : Handler ExtSig σ
  | .apply cfg, s => (applyWith cfg).run.run H s
  | .ctl c, s => H c s
  | .now, s => (0, s)
  | .loadJson, s | .loadOrCreateJson, s => (json, s)
  | .serve, s | .spawnWatch, s | .installSignals, s => (.ok (), s)
  | .stopRequested, s | .reloadPending, s => (false, s)
  | .recvEvent, s => (.timeout, s)

theorem liveHandler_implements {H : Handler CtlSig σ} {W : Env CtlSig σ} (hH : H.Implements W)
    {D : σ → σ → Prop} (hD : ∀ s, D s s) (json : Except Error Config) :
    (liveHandler H json).Implements (liveExt W D) := by
  intro c s
  cases c with
  | apply cfg => exact hH.exec _ _
  | ctl c => exact hH c s
  | _ => exact hD s

theorem liveHandler_logged {H : Handler CtlSig σ} {W : Env CtlSig σ} (hH : H.Implements W)
    {D : σ → σ → Prop} (hD : ∀ s, D s s) (json : Except Error Config) :
    (liveHandler H.logged json).Implements (liveLog W D) :=
  liveHandler_implements hH.logged (fun s => ⟨hD s.1, rfl⟩) json

/-- The start on a configuration, and the steps of `ks` after it. -/
def simulate (H : Handler CtlSig σ) (cfg : Config) (s₀ : σ) (ks : List StepKind) :
    List (Record (σ × Log CtlSig σ)) × Mem × σ × Log CtlSig σ :=
  let H := liveHandler H.logged (.ok cfg)
  (records H (boots H (s₀, [])).2 ks, final H (boots H (s₀, [])).2 ks)

theorem run_simulate (H : Handler CtlSig σ) {cfg : Config} {s₀ : σ} (ks : List StepKind)
    (hstart : (boots (liveHandler H.logged (.ok cfg)) (s₀, [])).1 = .ok ()) :
    Run (liveLog H.graph Eq) (s₀, []) (simulate H cfg s₀ ks).1 (simulate H cfg s₀ ks).2 :=
  run_of_handler (liveHandler_logged H.implements_graph (fun _ => rfl) _) hstart ks

/-! ### A machine without Ethernet -/

def noEthernetCtl : Handler CtlSig (Net × Bool) :=
  ctlHandler Lan.silent.net (Dnsmasq.handler (.ok false))

def noEthernet : Handler ExtSig (Net × Bool) := liveHandler noEthernetCtl (.ok {})

/-- The daemon starts without an interface. -/
def noEthernetStart : Mem × Net × Bool :=
  (boots noEthernet ({ oneEthernet [] with ethernets := [] }, false)).2

theorem run_noEthernet (ks : List StepKind) :
    Run (liveExt noEthernetCtl.graph Eq) ({ oneEthernet [] with ethernets := [] }, false)
      (records noEthernet noEthernetStart ks) (final noEthernet noEthernetStart ks) :=
  run_of_handler (liveHandler_implements noEthernetCtl.implements_graph (fun _ => rfl) _)
    (by decide) ks

end Micronet

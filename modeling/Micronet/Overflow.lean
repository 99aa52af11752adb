import Micronet.ConfigJson
import Micronet.DaemonContract
import Micronet.Process

/-!
# Overflow of the clock

Three sums of the apply and of the loop add to a reading of the clock: the deadline of
the probe, the deadline of the wait for a carrier, and the next refresh.  The last two
add constants; the first adds `probeTimeoutSecs`, which validation bounds only from
below.  A run overflows exactly when the longest of them does not fit after the latest
reading (`process_noOverflow_iff`).
-/
namespace Micronet
open Interaction Prog Monotonic

namespace Config

/-- The interface is picked automatically. -/
def isAuto (cfg : Config) : Bool :=
  cfg.interface.all fun name => name = LiveNet.autoIface

/-- The longest wait that is added to a reading of the clock, in seconds: for an offer,
for a carrier, or for the next refresh. -/
def longestWait (cfg : Config) : Nat :=
  max cfg.probeTimeoutSecs.toNat (if cfg.isAuto then 5 else 3)

theorem three_le_longestWait (cfg : Config) : 3 ≤ cfg.longestWait := by
  unfold longestWait
  split <;> omega

end Config

variable {ω : Type} {X : Env OsSig ω} {C : Config → Prop} {T : Timespec}

/-- The clock reads at most `T`, and the file only decodes to configurations in `C`. -/
structure Admits (C : Config → Prop) (T : Timespec) (X : Env OsSig ω) : Prop where
  /-- Every reading of the clock is at most `T`. -/
  now : ∀ w r w', X (.sys .now) w r w' → r ≤ T.ticks
  /-- The file decodes to a configuration in `C`, when it is reloaded and at the start. -/
  load : ∀ w cfg w', X (.ext .loadJson) w (.ok cfg) w' → C cfg
  loadOrCreate : ∀ w cfg w', X (.ext .loadOrCreateJson) w (.ok cfg) w' → C cfg

/-- What is a whole number of seconds after a reading. -/
theorem Admits.fits_secs (hX : Admits C T X) (secs : Nat) (hsecs : T.secs + secs < 2 ^ 63)
    {w w' : ω} {now : Instant} (h : X (.sys .now) w now w') : Fits now (secs * 10 ^ 9) :=
  ((T.fits_secs secs).mpr hsecs).mono (hX.now w now w' h)

theorem autoCarrierWait_eq : LiveNet.autoCarrierWait = (5 * 10 ^ 9 : Nat) := rfl

/-- Any way to stop but by overflow. -/
abbrev otherHalt {σ : Type} (e : Halt) (_ : σ) : Prop := e ≠ .overflow

/-! ## Programs that never overflow -/

section NoOverflow
variable {S S' : Signature} {α β σ : Type} {E : Env S σ} {F : Env S' σ}

/-- `x` never overflows. -/
def NoOverflow (E : Env S σ) (x : ExceptT Halt (Prog S) α) : Prop :=
  ∀ s, wpE E x (fun _ _ => True) otherHalt s

theorem noOverflow_pure (a : α) : NoOverflow E (Pure.pure a) := fun _ => trivial

theorem noOverflow_bind {x : ExceptT Halt (Prog S) α} {f : α → ExceptT Halt (Prog S) β}
    (hx : NoOverflow E x) (hf : ∀ a, NoOverflow E (f a)) : NoOverflow E (x >>= f) := fun s =>
  wpE_bind.mpr (wpE_mono (hx s) (fun a t _ => hf a t) fun _ _ he => he)

theorem noOverflow_lift (p : Prog S α) : NoOverflow E (liftM p) := fun _ =>
  wpE_lift.mpr (wp_iff.mpr fun _ _ _ => trivial)

/-- What follows a call is asked only of the answers there are. -/
theorem noOverflow_call {op : S.Op} {f : S.Ret op → ExceptT Halt (Prog S) β}
    (hf : ∀ s r t, E op s r t → NoOverflow E (f r)) : NoOverflow E (liftM (call op) >>= f) := by
  intro s
  exact wpE_bind.mpr (wpE_lift.mpr fun r t hop => hf s r t hop t)

theorem noOverflow_plus {t d : Nat} (h : Fits t d) : NoOverflow E (plus t d) := fun _ =>
  wpE_plus.mpr ⟨fun _ => trivial, fun hn => absurd h hn⟩

theorem noOverflow_ite {c : Prop} [Decidable c] {x y : ExceptT Halt (Prog S) α}
    (hx : NoOverflow E x)
    (hy : NoOverflow E y) : NoOverflow E (if c then x else y) := fun s =>
  wpE_ite.mpr ⟨fun _ => hx s, fun _ => hy s⟩

theorem noOverflow_via {f : (op : S.Op) → ExceptT Halt (Prog S') (S.Ret op)} {A : S.Op → Prop}
    {K : α → Prop} {p : Prog S α} (hp : p.Within A K) (hf : ∀ op, A op → NoOverflow F (f op)) :
    NoOverflow F (p.via f) := by
  intro s
  refine wpE_mono (wpE_via (B := fun _ _ => True) (I := fun _ => True) (fun op u hop _ => ?_)
    (meets_of_within hp) trivial) (fun _ _ _ => trivial) fun _ _ he => he
  exact wpE_mono (hf op hop u) (fun _ _ _ => ⟨trivial, trivial⟩) fun _ _ he => he

/-- For a program that can also fail. -/
theorem noOverflow_run_bind {ε : Type} {x : ExceptT ε (ExceptT Halt (Prog S)) α}
    {f : α → ExceptT ε (ExceptT Halt (Prog S)) β} (hx : NoOverflow E x.run)
    (hf : ∀ a, NoOverflow E (f a).run) : NoOverflow E (x >>= f).run := by
  rw [ExceptT.run_bind]
  refine noOverflow_bind hx fun r => ?_
  cases r with
  | ok a => exact hf a
  | error e => exact noOverflow_pure _

theorem noOverflow_run_lift {ε : Type} {x : ExceptT Halt (Prog S) α} (hx : NoOverflow E x) :
    NoOverflow E (liftM x : ExceptT ε (ExceptT Halt (Prog S)) α).run :=
  noOverflow_bind hx fun _ => noOverflow_pure _

/-- The same of a call in it. -/
theorem noOverflow_run_call {ε : Type} {op : S.Op}
    {f : S.Ret op → ExceptT ε (ExceptT Halt (Prog S)) β}
    (hf : ∀ s r t, E op s r t → NoOverflow E (f r).run) :
    NoOverflow E ((liftM (liftM (call op) : ExceptT Halt (Prog S) (S.Ret op)) :
      ExceptT ε (ExceptT Halt (Prog S)) (S.Ret op)) >>= f).run := by
  rw [ExceptT.run_bind]
  show NoOverflow E ((liftM (call op) >>= fun r => Pure.pure (Except.ok r)) >>= _)
  rw [bind_assoc]
  exact noOverflow_call fun s r t h => by
    rw [pure_bind]
    exact hf s r t h

end NoOverflow

/-! ## The methods -/

namespace Process
variable (decode : Probe.Decoder) (n : Nat)

section Probe
open Probe
variable {σ : Type} {E : Env ProbeSig σ}

theorem noOverflow_probeCall (c : ProbeCall) : NoOverflow E (probeCall c) := noOverflow_lift _

theorem noOverflow_context {α : Type} (what : String)
    {x : ExceptT Halt (Prog ProbeSig) (Except String α)}
    (hx : NoOverflow E x) : NoOverflow E (context what x).run := by
  refine noOverflow_bind hx fun r => ?_
  cases r with
  | ok a => exact noOverflow_pure _
  | error e => exact noOverflow_pure _

theorem noOverflow_sendDiscover (iface : String) (pkt : List UInt8) :
    NoOverflow E (sendDiscover iface pkt).run := by
  refine noOverflow_run_bind (noOverflow_context _ (noOverflow_probeCall _)) fun _ => ?_
  refine noOverflow_run_bind (noOverflow_context _ (noOverflow_probeCall _)) fun _ => ?_
  refine noOverflow_run_bind (noOverflow_context _ (noOverflow_probeCall _)) fun _ => ?_
  refine noOverflow_run_bind (noOverflow_context _ (noOverflow_probeCall _)) fun _ => ?_
  refine noOverflow_run_bind (noOverflow_context _ (noOverflow_probeCall _)) fun _ => ?_
  refine noOverflow_run_bind (noOverflow_context _ (noOverflow_probeCall _)) fun _ => ?_
  exact noOverflow_context _ (noOverflow_probeCall _)

theorem noOverflow_awaitOffer (xid : UInt32) (mac : Mac) (deadline : Nat) :
    NoOverflow E (awaitOffer decode xid mac deadline n).run := by
  induction n with
  | zero => exact fun s => Halt.noConfusion
  | succ n ih =>
    refine noOverflow_run_bind (noOverflow_run_lift (noOverflow_probeCall .now)) fun now => ?_
    split
    · refine noOverflow_run_bind (noOverflow_run_lift (noOverflow_probeCall .recvFrom)) ?_
      intro received
      cases received with
      | datagram buf src =>
        dsimp only
        split
        · exact noOverflow_pure _
        · exact ih
      | timedOut => exact ih
      | failed e => exact noOverflow_pure _
    · exact noOverflow_pure _

/-- The probe overflows only at its deadline. -/
theorem noOverflow_liveProbe (iface : String) {timeout : Duration}
    (hnow : ∀ s now t, E .now s now t → Fits now timeout) :
    NoOverflow E (liveProbe decode n iface timeout).run := by
  refine noOverflow_run_bind (noOverflow_probeCall (.readMac iface)) fun mac => ?_
  refine noOverflow_run_bind (noOverflow_run_lift (noOverflow_probeCall .xidNow)) fun xid => ?_
  refine noOverflow_run_bind (noOverflow_context _ (noOverflow_probeCall _)) fun pkt => ?_
  refine noOverflow_run_bind (noOverflow_sendDiscover iface pkt) fun _ => ?_
  refine noOverflow_run_call fun s now t h => ?_
  refine noOverflow_run_bind (noOverflow_run_lift (noOverflow_plus (hnow s now t h))) fun _ => ?_
  exact noOverflow_awaitOffer decode n xid mac _

end Probe

theorem noOverflow_sysProg {α : Type} (p : Prog SysSig α) : NoOverflow X (p.via sys) :=
  noOverflow_via (within_true p) fun _ _ => noOverflow_lift _

/-- A deadline after a reading of the clock. -/
theorem noOverflow_deadline {β : Type} {d : Duration} {f : Nat → OsM β}
    (hd : ∀ w now w', X (.sys .now) w now w' → Fits now d)
    (hf : ∀ deadline, NoOverflow X (f deadline)) :
    NoOverflow X (sys .now >>= fun now => plus now d >>= f) :=
  noOverflow_call fun w now w' h => noOverflow_bind (noOverflow_plus (hd w now w' h)) hf

section Methods
variable (hX : Admits C T X)
include hX

theorem noOverflow_waitCarrier (h5 : T.secs + 5 < 2 ^ 63) (names : List String) :
    NoOverflow X (waitCarrier names) := by
  refine noOverflow_bind (noOverflow_sysProg _) fun _ => ?_
  refine noOverflow_deadline ?_ ?_
  · intro w now w' h
    rw [autoCarrierWait_eq]
    exact hX.fits_secs 5 h5 h
  · intro deadline
    exact noOverflow_sysProg _

theorem noOverflow_resolveAuto (h5 : T.secs + 5 < 2 ^ 63) : NoOverflow X resolveAuto := by
  refine noOverflow_bind (noOverflow_lift _) fun r => ?_
  rcases r with e | _ | ⟨fallback, names⟩
  · exact noOverflow_pure _
  · exact noOverflow_pure _
  · refine noOverflow_bind (noOverflow_sysProg _) fun found => ?_
    cases found with
    | some name => exact noOverflow_pure _
    | none =>
      exact noOverflow_bind (noOverflow_waitCarrier hX h5 _) fun _ => noOverflow_pure _

theorem noOverflow_resolveIface {configured : Option String}
    (h5 : configured.all (· = LiveNet.autoIface) → T.secs + 5 < 2 ^ 63) :
    NoOverflow X (resolveIface configured) := by
  cases configured with
  | none => exact noOverflow_resolveAuto hX (h5 rfl)
  | some name =>
    show NoOverflow X (if name = LiveNet.autoIface then resolveAuto else _)
    by_cases hauto : name = LiveNet.autoIface
    · rw [if_pos hauto]
      exact noOverflow_resolveAuto hX (h5 (by simp [hauto]))
    · rw [if_neg hauto]
      exact noOverflow_sysProg _

end Methods

theorem noOverflow_waitIpv4 (iface : String) (timeout : Duration) :
    NoOverflow X (waitIpv4 n iface timeout) := by
  refine noOverflow_bind (noOverflow_lift _) fun start => ?_
  induction n with
  | zero => exact fun s => Halt.noConfusion
  | succ n ih =>
    refine noOverflow_bind (noOverflow_lift _) fun now => ?_
    refine noOverflow_ite ?_ (noOverflow_lift _)
    refine noOverflow_bind (noOverflow_lift _) fun has => noOverflow_ite (noOverflow_pure _) ?_
    exact noOverflow_bind (noOverflow_lift _) fun _ => ih

/-- The calls of an apply of `cfg`: its own interface, and its own timeout. -/
def Asks (cfg : Config) : CtlCall → Prop
  | .net (.resolveIface configured) => configured = cfg.interface
  | .gw (.probeForeignDhcp _ timeout) => timeout = .fromSecs cfg.probeTimeoutSecs
  | _ => True

theorem within_applyWith (cfg : Config) : WithinE (Asks cfg) (fun _ => True) (applyWith cfg) := by
  have hloop (k : String) : (isolateIface k).Within (Asks cfg) fun _ => True := by
    refine within_isolateIface (fun op hop => ?_) trivial
    unfold CtlCall.Isolates at hop
    split at hop <;> first | exact trivial | exact hop.elim
  have hmode (k : String) (ip : Ipv4Addr) (mode : Mode) :
      WithinE (Asks cfg) (fun _ => True) (applyMode cfg k ip mode) := by
    cases mode with
    | client => simp [applyMode, applyClient, Asks]
    | static => simp [applyMode, applyStatic, Asks]
    | gateway => simp [applyMode, applyGateway, Asks]
  have hclient (k : String) : WithinE (Asks cfg) (fun _ => True) (applyClient cfg k) :=
    hmode k cfg.staticAddr .client
  rw [applyWith_eq]
  simp [applyOn, seekOffer, probeOn, applyOffer, applyLocal, assignStatic, askGateway, Asks, hloop,
    hmode, hclient]

/-- No implementation of the probe's calls halts. -/
theorem not_exec_probe_error (c : Probe.ProbeCall) (w : ω) (e : Halt) (w' : ω) :
    ¬ (probe c).run.Exec X w (.error e) w' := by
  cases c <;> exact not_exec_lift_error

theorem noOverflow_timeless {c : CtlCall} (hc : c.Timeless) : NoOverflow X (method decode n c) := by
  cases c with
  | net c =>
    cases c with
    | resolveIface configured => exact hc.elim
    | waitIpv4 iface timeout => exact noOverflow_waitIpv4 n iface timeout
    | _ => exact noOverflow_lift _
  | gw c =>
    cases c with
    | probeForeignDhcp iface timeout => exact hc.elim
    | _ => exact noOverflow_lift _

section Methods
variable (hX : Admits C T X)
include hX

theorem noOverflow_probeForeignDhcp (iface : String) {secs : UInt64}
    (hsecs : T.secs + secs.toNat < 2 ^ 63) :
    NoOverflow X (method decode n (.gw (.probeForeignDhcp iface (.fromSecs secs)))) := by
  intro w
  refine (wpE_viaE not_exec_probe_error).mpr (noOverflow_liveProbe decode n iface ?_ w)
  intro u now v h
  exact hX.fits_secs secs.toNat hsecs (exec_call.mp (exec_lift_ok.mp h))

/-- **An apply does not overflow** where the longest wait of its configuration fits. -/
theorem noOverflow_method {cfg : Config} (hfit : T.secs + cfg.longestWait < 2 ^ 63) {c : CtlCall}
    (hc : Asks cfg c) : NoOverflow X (method decode n c) := by
  have hmax : cfg.probeTimeoutSecs.toNat ≤ cfg.longestWait := Nat.le_max_left _ _
  cases c with
  | net c =>
    cases c with
    | resolveIface configured =>
      obtain rfl : configured = cfg.interface := hc
      refine noOverflow_resolveIface hX fun hauto => ?_
      have hfive : 5 ≤ cfg.longestWait := by
        unfold Config.longestWait Config.isAuto
        rw [if_pos hauto]
        exact Nat.le_max_right _ _
      omega
    | waitIpv4 iface timeout => exact noOverflow_waitIpv4 n iface timeout
    | _ => exact noOverflow_lift _
  | gw c =>
    cases c with
    | probeForeignDhcp iface timeout =>
      obtain rfl : timeout = .fromSecs cfg.probeTimeoutSecs := hc
      exact noOverflow_probeForeignDhcp decode n hX iface (by omega)
    | _ => exact noOverflow_lift _

/-- The answer of a call of the loop is as agreed, and it does not overflow. -/
theorem wpE_outside (hfits : ∀ cfg, C cfg → cfg.Valid → T.secs + cfg.longestWait < 2 ^ 63)
    {c : ExtCall} (hc : DaemonCall.Guarantee C (.ext c)) (w : ω) :
    wpE X (outside decode n c) (fun r _ => DaemonCall.Rely C T (.ext c) r) otherHalt w := by
  have hlift {c : ExtCall} (h : ∀ r w', X (.ext c) w r w' → DaemonCall.Rely C T (.ext c) r) :
      wpE X (ext c) (fun r _ => DaemonCall.Rely C T (.ext c) r) otherHalt w :=
    wpE_lift.mpr h
  cases c with
  | apply cfg =>
    refine noOverflow_via (within_applyWith cfg) (fun op hop => ?_) w
    exact noOverflow_method decode n hX (hfits cfg hc.1 hc.2) hop
  | ctl c => exact wpE_mono (noOverflow_timeless decode n hc w) (fun _ _ h => h) fun _ _ h => h
  | now => exact wpE_lift.mpr fun now w' h => hX.now w now w' h
  | loadJson => exact hlift fun r w' h cfg hr => hX.load w cfg w' (hr ▸ h)
  | loadOrCreateJson => exact hlift fun r w' h cfg hr => hX.loadOrCreate w cfg w' (hr ▸ h)
  | _ => exact hlift fun _ _ _ => trivial

end Methods

/-! ## The process -/

theorem wpE_implement_ext (hX : Admits C T X)
    (hfits : ∀ cfg, C cfg → cfg.Valid → T.secs + cfg.longestWait < 2 ^ 63) {c : ExtCall}
    (hc : DaemonCall.Guarantee C (.ext c)) (s : Mem × ω) :
    wpE (procEnv X) (implement decode n (.ext c))
      (fun r t => DaemonCall.Rely C T (.ext c) r ∧ t.1 = s.1) otherHalt s := by
  refine wpE_iff.mpr fun r t h => ?_
  obtain ⟨hex, hm⟩ := (exec_implement_ext decode n).mp h
  have hpost := wpE_iff.mp (wpE_outside decode n hX hfits hc s.2) r t.2 hex
  cases r with
  | ok a => exact ⟨hpost, hm⟩
  | error e => exact hpost

/-- An access, or a call, that keeps its side is answered as agreed. -/
theorem wpE_implement (hX : Admits C T X)
    (hfits : ∀ cfg, C cfg → cfg.Valid → T.secs + cfg.longestWait < 2 ^ 63) (c : DaemonCall)
    (s : Mem × ω) (hc : c.Guarantee C) (hs : s.1.Sound C) :
    wpE (procEnv X) (implement decode n c) (fun r t => c.Rely C T r ∧ t.1.Sound C) otherHalt s := by
  cases c with
  | mem f =>
    refine (wpE_implement_mem decode n).mpr ⟨fun _ => ⟨hs, hc _ hs⟩, fun hn => ?_⟩
    exact absurd (hc _ hs).refresh hn
  | ext c =>
    exact wpE_mono (wpE_implement_ext decode n hX hfits hc s)
      (fun r t ht => ⟨ht.1, ht.2 ▸ hs⟩) fun _ _ he => he

/-- **The process does not overflow** where the waits of its configurations fit. -/
theorem noOverflow_process (hX : Admits C T X)
    (hfits : ∀ cfg, C cfg → cfg.Valid → T.secs + cfg.longestWait < 2 ^ 63) (k : Nat) :
    NoOverflow (procEnv X) (process decode n k) := by
  intro s
  have hearly (op : DaemonCall) (u : Mem × ω) (hop : op.Early C) :
      wpE (procEnv X) (implement decode n op) (fun r _ => op.Rely C T r ∧ True) otherHalt u := by
    cases op with
    | mem f => exact hop.elim
    | ext c =>
      exact wpE_mono (wpE_implement_ext decode n hX hfits hop u)
        (fun r t ht => ⟨ht.1, trivial⟩) fun _ _ he => he
  unfold process
  rw [run_eq, ExceptT.run_bind, via_bind, wpE_bind]
  refine wpE_mono (wpE_via (I := fun _ => True) (fun op u hop _ => hearly op u hop)
    early_loadOrCreate trivial) (fun r t hr => ?_) fun _ _ he => he
  obtain ⟨hr, -⟩ := hr
  cases r with
  | error e => exact trivial
  | ok cfg =>
    obtain ⟨hc, hv⟩ := hr cfg rfl
    have hT : T.secs + 3 < 2 ^ 63 := by
      have := hfits cfg hc hv
      have := cfg.three_le_longestWait
      omega
    dsimp only
    rw [run_lift_bind, via_bind, wpE_bind]
    refine wpE_mono (wpE_via (I := fun _ => True) (fun op u hop _ => hearly op u hop)
      (early_initialStatus hc hv) trivial) (fun st t _ => ?_) fun _ _ he => he
    -- from here on the loop's own invariant
    have hnew : (Mem.new cfg st).Sound C := ⟨hc, hv, show 0 < limit by decide⟩
    rw [run_lift_bind, modifyMem, bind_assoc, via_bind, wpE_bind, via_call]
    refine (wpE_implement_mem decode n).mpr ⟨fun _ => ?_, fun hn => absurd hnew.refresh hn⟩
    exact wpE_mono (wpE_via (wpE_implement decode n hX hfits) (obeys_listen hT k) hnew)
      (fun _ _ _ => trivial) fun _ _ he => he

/-! ## Where a wait does not fit -/

/-- An outside whose clock stands at `T` and whose file holds `cfg`; any other answer may
be given. -/
def standing (T : Timespec) (cfg : Config) : Env OsSig Unit
  | .sys .now, _, r, _ => r = T.ticks
  | .ext .loadJson, _, r, _ => r = .ok cfg
  | .ext .loadOrCreateJson, _, r, _ => r = .ok cfg
  | _, _, _, _ => True

theorem admits_standing {cfg : Config} (hc : C cfg) : Admits C T (standing T cfg) where
  now w r w' h := Nat.le_of_eq h
  load w cfg' w' h := by
    cases h
    exact hc
  loadOrCreate w cfg' w' h := by
    cases h
    exact hc

section Standing
variable {cfg : Config}

theorem exec_sys {c : SysCall} {r : c.Ret} (h : standing T cfg (.sys c) () r ()) :
    (sys c).run.Exec (standing T cfg) () (.ok r) () := exec_lift_ok.mpr (exec_call.mpr h)

theorem exec_probe {c : Probe.ProbeCall} (hc : c ≠ .now) (r : c.Ret) :
    (probe c).run.Exec (standing T cfg) () (.ok r) () := by
  cases c with
  | now => exact absurd rfl hc
  | _ => exact exec_lift_ok.mpr (exec_call.mpr trivial)

open Probe in
theorem probe_overflows (iface : String) {secs : UInt64}
    (hsecs : ¬ T.secs + secs.toNat < 2 ^ 63) :
    (method decode n (.gw (.probeForeignDhcp iface (.fromSecs secs)))).run.Exec (standing T cfg) ()
      (.error .overflow) () := by
  refine (exec_viaE not_exec_probe_error).mpr ?_
  have hcall (c : ProbeCall) (hc : c ≠ .now) (r : c.Ret) :
      (probeCall c).run.Exec ((standing T cfg).through probe) () (.ok r) () :=
    exec_lift_ok.mpr (exec_call.mpr (exec_probe hc r))
  have hnow : (probeCall .now).run.Exec ((standing T cfg).through probe) () (.ok T.ticks) () :=
    exec_lift_ok.mpr (exec_call.mpr (exec_sys rfl))
  refine exec_run_bind (hcall (.readMac iface) (by simp) (.ok (Vector.replicate 6 0))) ?_
  refine exec_run_bind (exec_run_lift (hcall .xidNow (by simp) (0 : UInt32))) ?_
  refine exec_run_bind (exec_context (hcall (.encode _) (by simp) (.ok []))) ?_
  refine exec_run_bind (exec_sendDiscover fun c r hr => hcall c (by rintro rfl; exact hr) r) ?_
  refine exec_run_bind (exec_run_lift hnow) ?_
  have hfit : ¬ Fits T.ticks (Duration.fromSecs secs) := mt (fits_fromSecs T secs).mp hsecs
  exact exec_run_lift_halt (exec_plus_overflow hfit)

theorem waitCarrier_overflows (h5 : ¬ T.secs + 5 < 2 ^ 63) (name : String) :
    (waitCarrier [name]).run.Exec (standing T cfg) () (.error .overflow) () := by
  have hfit : ¬ Fits T.ticks LiveNet.autoCarrierWait := by
    rw [autoCarrierWait_eq]
    exact fun h => h5 ((T.fits_secs 5).mp h)
  unfold waitCarrier
  refine exec_bind_ok (a := ⟨⟩) (u := ()) (exec_via_ok.mpr ?_) ?_
  · exact ⟨true, (), exec_sys trivial, rfl, rfl⟩
  · refine exec_bind_ok (exec_sys (c := .now) rfl) ?_
    exact exec_bind_halt (exec_plus_overflow hfit)

theorem resolveAuto_overflows (h5 : ¬ T.secs + 5 < 2 ^ 63) :
    resolveAuto.run.Exec (standing T cfg) () (.error .overflow) () := by
  refine exec_bind_ok (exec_sys (c := .listPhysicalEthernet) (r := .ok ["eth0"]) trivial) ?_
  refine exec_bind_ok (a := none) (u := ()) (exec_via_ok.mpr ?_) ?_
  · exact ⟨false, (), exec_sys trivial, rfl, rfl⟩
  · exact exec_bind_halt (waitCarrier_overflows h5 "eth0")

/-- A method that is not looked into. -/
theorem exec_plain (c : CtlCall) (hc : method decode n c = ext (.ctl c)) (r : c.Ret) :
    (Interaction.call (S := CtlSig) c).Exec
      ((standing T cfg).through (S := CtlSig) (method decode n)) () r () := by
  refine exec_call.mpr ?_
  show (method decode n c).run.Exec _ () (.ok r) ()
  rw [hc]
  exact exec_lift_ok.mpr (exec_call.mpr trivial)

/-- The resolution can succeed, and it can fail. -/
theorem resolveIface_answers (configured : Option String) :
    (∃ k, (resolveIface configured).run.Exec (standing T cfg) () (.ok (.ok k)) ()) ∧
      ∃ e, (resolveIface configured).run.Exec (standing T cfg) () (.ok (.error e)) () := by
  have hauto : (∃ k, resolveAuto.run.Exec (standing T cfg) () (.ok (.ok k)) ()) ∧
      ∃ e, resolveAuto.run.Exec (standing T cfg) () (.ok (.error e)) () := by
    constructor
    · refine ⟨"eth0", ?_⟩
      refine exec_bind_ok (exec_sys (c := .listPhysicalEthernet) (r := .ok ["eth0"]) trivial) ?_
      refine exec_bind_ok (a := some "eth0") (u := ()) (exec_via_ok.mpr ?_) ⟨rfl, rfl⟩
      exact ⟨true, (), exec_sys trivial, rfl, rfl⟩
    · exact ⟨.noEthernet, exec_bind_ok
        (exec_sys (c := .listPhysicalEthernet) (r := .error .noEthernet) trivial) ⟨rfl, rfl⟩⟩
  cases configured with
  | none => exact hauto
  | some name =>
    unfold resolveIface
    dsimp only
    split
    · exact hauto
    · constructor
      · refine ⟨name, exec_via_ok.mpr ?_⟩
        exact ⟨true, (), exec_sys trivial, rfl, rfl⟩
      · refine ⟨.notEthernet name, exec_via_ok.mpr ?_⟩
        exact ⟨false, (), exec_sys trivial, rfl, rfl⟩

theorem resolveIface_overflows {configured : Option String}
    (hauto : configured.all fun name => name = LiveNet.autoIface) (h5 : ¬ T.secs + 5 < 2 ^ 63) :
    (resolveIface configured).run.Exec (standing T cfg) () (.error .overflow) () := by
  cases configured with
  | none => exact resolveAuto_overflows h5
  | some name =>
    obtain rfl : name = LiveNet.autoIface := by simpa using hauto
    exact resolveAuto_overflows h5

/-- An apply that gets an interface comes to its probe. -/
theorem apply_overflows_probe (hv : cfg.Valid)
    (hsecs : ¬ T.secs + cfg.probeTimeoutSecs.toNat < 2 ^ 63) :
    (outside decode n (.apply cfg)).run.Exec (standing T cfg) () (.error .overflow) () := by
  show ((applyWith cfg).run.via (method decode n)).run.Exec _ () (.error .overflow) ()
  rw [applyWith_eq]
  have hvalid : cfg.validate = .ok () := hv
  refine exec_via_run_bind (a := ()) (u := ()) ⟨hvalid.symm, rfl⟩ ?_
  obtain ⟨k, hk⟩ := (@resolveIface_answers T cfg cfg.interface).1
  refine exec_via_run_bind (a := k) (u := ()) (exec_call.mpr hk) ?_
  refine exec_via_run_halt ?_
  refine exec_via_run_bind (a := ⟨⟩) (u := ()) (exec_lift_ok.mpr ?_) ?_
  · have hlist := @exec_plain T decode n cfg (.net .listEthernet) rfl (.error .noEthernet)
    exact ⟨.error .noEthernet, (), exec_call.mp hlist, rfl, rfl⟩
  refine exec_via_run_bind (a := ()) (u := ())
    (exec_plain decode n (.net (.bringUp k)) rfl (.ok ())) ?_
  refine exec_via_run_bind (a := ()) (u := ())
    (exec_plain decode n (.net (.stopDhclient k)) rfl (.ok ())) ?_
  refine exec_via_run_bind (a := false) (u := ()) (exec_lift_ok.mpr ?_) ?_
  · exact exec_plain decode n (.gw .dhcpRunning) rfl false
  refine exec_via_run_bind (a := ()) (u := ()) ⟨rfl, rfl⟩ ?_
  have hcall := via_call (f := method decode n) (S := CtlSig)
    (.gw (.probeForeignDhcp k (.fromSecs cfg.probeTimeoutSecs)))
  exact hcall ▸ probe_overflows decode n k hsecs

theorem apply_overflows_resolve (hv : cfg.Valid) (hauto : cfg.isAuto) (h5 : ¬ T.secs + 5 < 2 ^ 63) :
    (outside decode n (.apply cfg)).run.Exec (standing T cfg) () (.error .overflow) () := by
  show ((applyWith cfg).run.via (method decode n)).run.Exec _ () (.error .overflow) ()
  rw [applyWith_eq]
  have hvalid : cfg.validate = .ok () := hv
  refine exec_via_run_bind (a := ()) (u := ()) ⟨hvalid.symm, rfl⟩ ?_
  refine exec_via_run_halt ?_
  have hcall := via_call (f := method decode n) (S := CtlSig) (.net (.resolveIface cfg.interface))
  exact hcall ▸ resolveIface_overflows hauto h5

theorem apply_fails (hv : cfg.Valid) : ∃ e,
    (outside decode n (.apply cfg)).run.Exec (standing T cfg) () (.ok (.error e)) () := by
  obtain ⟨e, he⟩ := (@resolveIface_answers T cfg cfg.interface).2
  refine ⟨e, exec_via_ok.mpr ?_⟩
  have hvalid : cfg.validate = .ok () := hv
  rw [applyWith_eq]
  refine execE_bind.mpr (Or.inl ⟨(), (), ⟨hvalid.symm, rfl⟩, ?_⟩)
  exact execE_bind.mpr (Or.inr ⟨e, exec_call.mpr he, rfl⟩)

/-! ### The start overflows -/

theorem exec_implement {c : ExtCall} {r : c.Ret}
    (h : (outside decode n c).run.Exec (standing T cfg) () (.ok r) ()) (m : Mem) :
    (Interaction.call (S := DaemonSig) (.ext c)).Exec
      ((procEnv (standing T cfg)).through (S := DaemonSig) (implement decode n)) (m, ()) r
      (m, ()) :=
  exec_call.mpr ((exec_implement_ext decode n).mpr ⟨h, rfl⟩)

theorem exec_loadOrCreate (hv : cfg.Valid) (m : Mem) :
    loadOrCreate.run.Exec
      ((procEnv (standing T cfg)).through (S := DaemonSig) (implement decode n)) (m, ()) (.ok cfg)
      (m, ()) := by
  have hvalid : cfg.validate = .ok () := hv
  refine execE_bind.mpr (Or.inl ⟨cfg, (m, ()), exec_implement decode n ?_ m, ?_⟩)
  · exact exec_lift_ok.mpr (exec_call.mpr rfl)
  · exact execE_bind.mpr (Or.inl ⟨(), (m, ()), ⟨hvalid.symm, rfl⟩, rfl, rfl⟩)

/-- An apply that overflows ends the start. -/
theorem process_overflows_apply (hv : cfg.Valid) (k : Nat) (m : Mem)
    (h : (outside decode n (.apply cfg)).run.Exec (standing T cfg) () (.error .overflow) ()) :
    (process decode n k).run.Exec (procEnv (standing T cfg)) (m, ()) (.error .overflow)
      (m, ()) := by
  unfold process
  rw [run_eq]
  refine exec_via_run_bind (exec_loadOrCreate decode n hv m) ?_
  rw [run_lift_bind, via_bind]
  refine exec_bind_halt ?_
  unfold initialStatus
  rw [via_bind]
  refine exec_bind_halt ?_
  rw [via_call]
  exact (exec_implement_ext decode n).mpr ⟨h, rfl⟩

/-- So does a first refresh that is no instant. -/
theorem process_overflows_refresh (hv : cfg.Valid) (k : Nat) (m : Mem)
    (h3 : ¬ T.secs + 3 < 2 ^ 63) :
    ∃ t, (process decode n k).run.Exec (procEnv (standing T cfg)) (m, ()) (.error .overflow) t := by
  obtain ⟨e, he⟩ := apply_fails decode n (T := T) hv
  refine ⟨(.new cfg .empty, ()), ?_⟩
  unfold process
  rw [run_eq]
  refine exec_via_run_bind (exec_loadOrCreate decode n hv m) ?_
  rw [run_lift_bind, via_bind]
  refine exec_bind_ok (a := Status.empty) (u := (m, ())) (exec_via_ok.mpr ?_) ?_
  · exact exec_bind.mpr ⟨.error e, (m, ()), exec_implement decode n he m, rfl, rfl⟩
  have hnew : (Mem.new cfg .empty).nextRefresh < limit := show 0 < limit by decide
  rw [run_lift_bind, via_bind]
  refine exec_bind_ok (a := ()) (u := (.new cfg .empty, ())) (exec_via_ok.mpr ?_) ?_
  · exact exec_bind.mpr ⟨m, _, exec_call.mpr (exec_implement_mem decode n hnew), rfl, rfl⟩
  have hext (c : ExtCall) (hc : outside decode n c = ext c) (r : c.Ret)
      (hr : standing T cfg (.ext c) () r ()) :
      (Interaction.call (S := DaemonSig) (.ext c)).Exec
        ((procEnv (standing T cfg)).through (S := DaemonSig) (implement decode n))
        (.new cfg .empty, ()) r (.new cfg .empty, ()) := by
    refine exec_implement decode n ?_ _
    rw [hc]
    exact exec_lift_ok.mpr (exec_call.mpr hr)
  -- all that comes before the first refresh answers
  simp only [listen, bind_assoc]
  refine exec_via_run_bind (hext .serve rfl (.ok ()) trivial) ?_
  refine exec_via_run_bind (hext .spawnWatch rfl (.ok ()) trivial) ?_
  refine exec_via_run_bind (hext .installSignals rfl (.ok ()) trivial) ?_
  rw [run_lift_bind, via_bind]
  have hnow : (outside decode n .now).run.Exec (standing T cfg) () (.ok T.ticks) () :=
    exec_sys (c := .now) rfl
  refine exec_bind_ok (exec_via_ok.mpr (exec_implement decode n hnow (.new cfg .empty))) ?_
  rw [run_lift_bind, via_bind, modifyMem, via_bind]
  refine exec_bind_halt (exec_bind_halt ?_)
  rw [via_call]
  exact exec_implement_mem_halt decode n fun h => h3 ((T.fits_secs 3).mp h)

/-- **The daemon overflows at its start** where a wait does not fit. -/
theorem process_overflows (hv : cfg.Valid) (hfit : ¬ T.secs + cfg.longestWait < 2 ^ 63) (k : Nat)
    (m : Mem) :
    ∃ t, (process decode n k).run.Exec (procEnv (standing T cfg)) (m, ()) (.error .overflow) t := by
  by_cases hprobe : T.secs + cfg.probeTimeoutSecs.toNat < 2 ^ 63
  · by_cases hauto : cfg.isAuto = true
    · have hmax : cfg.longestWait = max cfg.probeTimeoutSecs.toNat 5 := by
        rw [Config.longestWait, if_pos hauto]
      have h5 : ¬ T.secs + 5 < 2 ^ 63 := by omega
      exact ⟨_, process_overflows_apply decode n hv k m
        (apply_overflows_resolve decode n hv hauto h5)⟩
    · have hmax : cfg.longestWait = max cfg.probeTimeoutSecs.toNat 3 := by
        rw [Config.longestWait, if_neg hauto]
      exact process_overflows_refresh decode n hv k m (by omega)
  · exact ⟨_, process_overflows_apply decode n hv k m (apply_overflows_probe decode n hv hprobe)⟩

end Standing

/-- Never to overflow, over executions. -/
theorem noOverflow_iff {S : Signature} {σ α : Type} {E : Env S σ} {x : ExceptT Halt (Prog S) α} :
    NoOverflow E x ↔ ∀ s t, ¬ x.run.Exec E s (.error .overflow) t := by
  constructor
  · exact fun h s t he => wpE_iff.mp (h s) (.error .overflow) t he rfl
  · intro h s
    refine wpE_iff.mpr fun r t he => ?_
    cases r with
    | ok a => exact trivial
    | error e =>
      rintro rfl
      exact h s t he

/-- **When the daemon cannot overflow.**  With a clock that reads at most `T` and a file that only
decodes to configurations in `C` (`Admits`), no run overflows if and only if, for every valid one,
the seconds of `T` and of the longest wait have a sum below `2 ^ 63`.  A run is the start and any
number `n` of passes, with an outside that is free otherwise; `decode` is what the package makes
of a datagram. -/
theorem process_noOverflow_iff (C : Config → Prop) (T : Timespec) (decode : Probe.Decoder) :
    (∀ (ω : Type) (X : Env OsSig ω), Admits C T X → ∀ n k s t,
      ¬ (process decode n k).run.Exec (procEnv X) s (.error .overflow) t) ↔
      ∀ cfg, C cfg → cfg.Valid → T.secs + cfg.longestWait < 2 ^ 63 := by
  constructor
  · intro h cfg hc hv
    by_contra hfit
    obtain ⟨t, ht⟩ := process_overflows decode 0 hv hfit 0 (.new cfg .empty)
    exact h Unit (standing T cfg) (admits_standing hc) 0 0 _ t ht
  · intro hfits ω X hX n k s t
    exact noOverflow_iff.mp (noOverflow_process decode n hX hfits k) s t

/-- The largest timeout a file can hold is accepted, and overflows at any time after the
start of the clock. -/
theorem largest_timeout_overflows :
    ∃ (cfg : Config) (T : Timespec) (X : Env OsSig Unit),
      Config.ofJson Ipv4Net.text (.obj [("probeTimeoutSecs", .num (2 ^ 64 - 1))]) = .ok cfg ∧
        cfg.Valid ∧ T.secs = 0 ∧ T.checkedAdd (Duration.fromSecs cfg.probeTimeoutSecs) = none ∧
        Admits (· = cfg) T X ∧ ∀ decode n k m,
          ∃ t, (process decode n k).run.Exec (procEnv X) (m, ()) (.error .overflow) t := by
  have hvalid : ({ probeTimeoutSecs := 18446744073709551615 } : Config).Valid := by decide
  have hwait :
      ({ probeTimeoutSecs := 18446744073709551615 } : Config).longestWait = 2 ^ 64 - 1 := by
    decide +kernel
  obtain ⟨T, hT⟩ : ∃ T : Timespec, T.secs = 0 :=
    ⟨⟨0, 0, by decide, by decide, by decide⟩, rfl⟩
  refine ⟨{ probeTimeoutSecs := 18446744073709551615 }, T,
    standing T { probeTimeoutSecs := 18446744073709551615 }, by decide +kernel, hvalid, hT, ?_,
    admits_standing rfl, ?_⟩
  · have hsum : UInt64.toNat 18446744073709551615 = 2 ^ 64 - 1 := by decide +kernel
    refine Option.not_isSome_iff_eq_none.mp fun h => ?_
    have hfit : T.secs + UInt64.toNat 18446744073709551615 < 2 ^ 63 :=
      (fits_fromSecs T _).mp ((T.isSome_checkedAdd _).mp h)
    omega
  · exact fun decode n k m => process_overflows decode n hvalid (by omega) k m

end Process
end Micronet
